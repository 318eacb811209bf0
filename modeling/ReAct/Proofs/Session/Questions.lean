import ReAct.Proofs.Dialogue
import ReAct.Session.Inquiry

/-!
# What a part of a session asks

Every part of an inquiry asks questions of a few kinds, whatever it is answered.  Finding the place
of the session in memory concerns memory only; the catalogue is asked by one part of the
preparation; building tools closes them if it fails; the session calls its model, runs and closes
tools, and tells memory of what it does (`Plan.asks_run`).

## Main Definitions

* `Request.Kind`: the kinds of requests
* `AsksOnly`: an action that asks questions of given kinds
-/

namespace ReAct.Session

/-- The kinds of requests. -/
inductive Request.Kind where
  | model
  | building
  | running
  | closing
  | memory
  | discovery
  deriving DecidableEq

/-- The kind of a request. -/
def Request.kind : Request → Request.Kind
  | .callModel _ _ => .model
  | .buildTool _ => .building
  | .runTool _ _ => .running
  | .closeTool _ => .closing
  | .memory _ => .memory
  | .discover _ _ => .discovery

/-- An action that asks nothing but questions of some kinds, whatever it is answered. -/
def AsksOnly {α : Type} (kinds : List Request.Kind) (x : Action α) : Prop :=
  x.Asks fun request => request.kind ∈ kinds

section AsksOnly

variable {α β : Type} {kinds : List Request.Kind}

theorem asksOnly_pure (a : α) : AsksOnly kinds (pure a : Action α) :=
  Dialogue.asks_pure a

theorem asksOnly_ask {request : Request} (h : request.kind ∈ kinds) :
    AsksOnly kinds (ask request) :=
  Dialogue.asks_question h

/-- More kinds may be allowed than are asked. -/
theorem AsksOnly.mono {more : List Request.Kind} {x : Action α} (h : AsksOnly kinds x)
    (hsubset : kinds ⊆ more) : AsksOnly more x :=
  Dialogue.Asks.mono (fun _ hrequest => hsubset hrequest) h

theorem AsksOnly.behind {first more : List Request.Kind} {x : Action α}
    (h : AsksOnly (first ++ kinds) x) (hsubset : kinds ⊆ more) : AsksOnly (first ++ more) x :=
  h.mono (List.append_subset.mpr
    ⟨List.subset_append_left _ _, List.subset_append_of_subset_right _ hsubset⟩)

/-- A sequence asks what its parts ask. -/
theorem AsksOnly.bind {x : Action α} {f : α → Action β} (hx : AsksOnly kinds x)
    (hf : ∀ a, AsksOnly kinds (f a)) : AsksOnly kinds (x >>= f) :=
  Dialogue.Asks.bind hx hf

/-- Where only questions of one other kind are hidden, nothing is. -/
theorem AsksOnly.overt {hidden : Request → Bool} {kind : Request.Kind} {x : Action α}
    (h : AsksOnly kinds x) (hhidden : ∀ request, hidden request = true → request.kind = kind)
    (hkind : kind ∉ kinds) : x.Asks fun request => hidden request = false := by
  refine Dialogue.Asks.mono (fun request hrequest => ?_) h
  rw [Bool.eq_false_iff]
  intro hhides
  exact hkind (hhidden request hhides ▸ hrequest)

/-- An attempt asks what its parts ask. -/
theorem asksOnly_attempt_bind {x : Attempt α} {f : α → Attempt β} (hx : AsksOnly kinds x.run)
    (hf : ∀ a, AsksOnly kinds (f a).run) : AsksOnly kinds (x >>= f).run := by
  rw [ExceptT.run_bind]
  refine hx.bind fun outcome => ?_
  cases outcome with
  | error failure => exact asksOnly_pure _
  | ok a => exact hf a

end AsksOnly

/-! ## Tools -/

/-- Closing asks for closing, by induction on the tools. -/
theorem asks_closeTools (tools : List Tool.Entry) : AsksOnly [.closing] (closeTools tools) := by
  induction tools with
  | nil => exact asksOnly_pure _
  | cons tool rest ih => exact (asksOnly_ask (.head _)).bind fun _ => ih

/-- Building may have to close what was built. -/
theorem asks_buildTools (specs : List Tool.Spec) (there : List Tool.Entry) :
    AsksOnly [.building, .closing] (buildTools there specs) := by
  induction specs generalizing there with
  | nil => exact asksOnly_pure _
  | cons spec rest ih =>
      refine (asksOnly_ask (.head _)).bind fun answer => ?_
      cases answer with
      | ok face => exact ih _
      | error failure =>
          exact ((asks_closeTools there).mono (List.subset_cons_self _ _)).bind fun _ =>
            asksOnly_pure _

theorem asks_createTools (types : List String) (specs : List Tool.Spec) :
    AsksOnly [.building, .closing] (createTools types specs) := by
  unfold createTools
  dsimp only
  split
  · exact asksOnly_pure _
  · exact asks_buildTools _ _

/-! ## The session -/

namespace Plan

variable (plan : Plan)

/-- Recording a step asks memory, if anything. -/
theorem asks_record (progress : Progress) (origin : String) (question response : Option String) :
    AsksOnly [.memory] (plan.record progress origin question response) := by
  unfold record
  cases plan.tracePlace? with
  | none => exact asksOnly_pure _
  | some place => exact (asksOnly_ask (.head _)).bind fun _ => asksOnly_pure _

/-- Reading a reply asks nothing of its own; what was read is recorded. -/
theorem asks_read (progress : Progress) (reply : Reply) :
    AsksOnly [.memory] (plan.read progress reply) := by
  unfold read
  split
  · exact asksOnly_pure _
  · split
    · exact asksOnly_pure _
    · exact (plan.asks_record _ _ _ _).bind fun _ => asksOnly_pure _

/-- Consulting asks the model once. -/
theorem asks_consult (progress : Progress) :
    AsksOnly [.model, .memory] (plan.consult progress) := by
  refine (asksOnly_ask (.head _)).bind fun answer => ?_
  cases answer with
  | error failure => exact asksOnly_pure _
  | ok reply => exact (plan.asks_read _ reply).mono (List.subset_cons_self _ _)

/-- Invoking a tool asks for its run, unless it is missing or refuses its parameters. -/
theorem asks_observe (turn : Reply.Turn) : AsksOnly [.running] (plan.observe turn) := by
  unfold observe
  split
  · exact asksOnly_pure _
  · unfold invoke
    split
    · exact (asksOnly_ask (.head _)).bind fun _ => asksOnly_pure _
    · exact asksOnly_pure _

theorem asks_useTool (progress : Progress) (turn : Reply.Turn) :
    AsksOnly [.running, .memory] (plan.useTool progress turn) :=
  ((plan.asks_observe turn).mono (by decide)).bind fun _ =>
    ((plan.asks_record _ _ _ _).mono (by decide)).bind fun _ => asksOnly_pure _

/-- What comes after a decision asks what going on asks. -/
theorem asks_settle {kinds : List Request.Kind}
    {goOn : Progress → Reply.Turn → Action (Progress × Except Failure String)}
    (h : ∀ progress turn, AsksOnly kinds (goOn progress turn)) (progress : Progress)
    (decision : Decision) : AsksOnly kinds (settle goOn progress decision) := by
  cases decision with
  | failed failure => exact asksOnly_pure _
  | answered text => exact asksOnly_pure _
  | toolCall turn => exact h progress turn

/-- The induction is on the calls that are left, as the recursion is. -/
theorem asks_converse (remaining : Nat) (progress : Progress) :
    AsksOnly [.model, .running, .memory] (plan.converse remaining progress) := by
  induction remaining generalizing progress with
  | zero =>
      refine ((plan.asks_consult progress).mono (by decide)).bind fun _ => ?_
      exact asks_settle (fun _ _ => asksOnly_pure _) _ _
  | succ remaining ih =>
      refine ((plan.asks_consult progress).mono (by decide)).bind fun _ => ?_
      refine asks_settle (fun progress turn => ?_) _ _
      exact ((plan.asks_useTool progress turn).mono (by decide)).bind fun used => ih used

/-- An answer is recorded in memory. -/
theorem asks_recordAnswer (progress : Progress) (answer : String) :
    AsksOnly [.memory] (plan.recordAnswer progress answer) := by
  unfold recordAnswer
  cases plan.tracePlace? with
  | none => exact asksOnly_pure _
  | some place => exact (asksOnly_ask (.head _)).bind fun _ => asksOnly_pure _

theorem asks_save (progress : Progress) (answer : String) :
    AsksOnly [.memory] (plan.save progress answer) := by
  unfold save
  cases plan.place? with
  | none => exact asksOnly_pure _
  | some place =>
      refine (plan.asks_recordAnswer progress answer).bind fun recorded => ?_
      cases recorded with
      | error failure => exact asksOnly_pure _
      | ok _ => exact (asksOnly_ask (.head _)).bind fun _ => asksOnly_pure _

theorem asks_conclude (progress : Progress) (outcome : Except Failure String) :
    AsksOnly [.memory] (plan.conclude progress outcome) := by
  cases outcome with
  | error failure => exact asksOnly_pure _
  | ok answer => exact (plan.asks_save progress answer).bind fun _ => asksOnly_pure _

/-- **What a session asks**: its model, its tools and memory. -/
theorem asks_run : AsksOnly [.model, .running, .memory, .closing] plan.run := by
  refine ((plan.asks_converse _ {}).mono (by decide)).bind ?_
  rintro ⟨progress, outcome⟩
  refine ((plan.asks_conclude progress outcome).mono (by decide)).bind fun _ => ?_
  exact ((asks_closeTools plan.tools).mono (by decide)).bind fun _ => asksOnly_pure _

end Plan

/-! ## The preparation -/

namespace Host

variable (host : Host) (agent : Agent) (inquiry : Inquiry)

/-- A session is begun in memory. -/
theorem asks_start : AsksOnly [.memory] (host.start inquiry).run := by
  unfold start
  split
  · apply asksOnly_attempt_bind
    · unfold conversation
      split
      · exact asksOnly_pure _
      · exact asksOnly_ask (.head _)
    · intro conversation
      apply asksOnly_attempt_bind
      · unfold root
        split
        · exact asksOnly_pure _
        · exact asksOnly_ask (.head _)
      · exact fun _ => asksOnly_pure _
  · exact asksOnly_pure _

/-- The earlier turns are recalled from memory. -/
theorem asks_earlierTurns (session : Session) (limit : Nat) :
    AsksOnly [.memory] (host.earlierTurns session limit).run := by
  unfold earlierTurns
  split
  · exact asksOnly_ask (.head _)
  · exact asksOnly_pure _

/-- The kinds of questions that are asked to find further tools. -/
def discoveryKinds : List Request.Kind :=
  if host.discovers then [.discovery] else []

/-- A catalogue is asked if there is one. -/
theorem asks_discovered :
    AsksOnly host.discoveryKinds (host.discovered agent inquiry).run := by
  unfold discovered discoveryKinds
  split
  · refine (asksOnly_ask (.head _)).bind fun answer => ?_
    cases answer with
    | ok specs => exact asksOnly_pure _
    | error failure =>
        dsimp only
        split <;> exact asksOnly_pure _
  · exact asksOnly_pure _

/-- A failure closes the tools. -/
theorem asks_orClose {α : Type} (tools : List Tool.Entry) (result : Except Failure α) :
    AsksOnly [.closing] (orClose tools result).run := by
  cases result with
  | ok a => exact asksOnly_pure _
  | error failure => exact (asks_closeTools tools).bind fun _ => asksOnly_pure _

end Host

end ReAct.Session
