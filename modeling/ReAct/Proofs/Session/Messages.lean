import ReAct.Config
import ReAct.Proofs.Provider
import ReAct.Proofs.Session.Budget

/-!
# The messages of a session

A session with a provider repeats in every call what was said since the question: for each round the
turn of the model and the message that hands the observation back.  Every round adds exactly these
two (`Plan.after_interactions`), because a turn that is no answer can be repeated and a result
always has a message.  So the messages of a call, put between brackets, are read as the list of
them (`Plan.run_alternates`).

## Main Definitions

* `messagesOf`: the two messages of a round
* `interactionsOf`: what a call carries of the messages before it
* `Plan.Asked`: the rounds in which the model asks for a tool
-/

namespace ReAct.Session

/-- What a call of the model carries of the messages since the question. -/
def interactionsOf (call : Fields Json × Except Failure Reply) : Option Json :=
  Fields.get? call.1 "_interactions"

/-- The result of a round, as it is handed back to the model. -/
def Round.result (round : Round) : Provider.ToolResult :=
  ⟨round.turn.toolCallId.getD "", round.observation.text⟩

/-- The two messages of a round: the turn of the model, and the result. -/
def messagesOf (provider : Provider) (round : Round) : List Json :=
  [provider.turnValue round.reply.toJson, provider.resultValue round.result]

/-- The messages of rounds are two for each of them. -/
theorem length_messagesOf (provider : Provider) (rounds : List Round) :
    (rounds.flatMap (messagesOf provider)).length = 2 * rounds.length := by
  induction rounds with
  | nil => rfl
  | cons round rounds ih =>
      rw [List.flatMap_cons, List.length_append, ih, List.length_cons]
      simp only [messagesOf, List.length_cons, List.length_nil]
      omega

/-- The messages of a round have distinct names if the reply has. -/
theorem distinct_messagesOf (provider : Provider) {rounds : List Round}
    (h : ∀ round ∈ rounds, round.reply.toJson.Distinct) :
    ∀ message ∈ rounds.flatMap (messagesOf provider), message.Distinct := by
  intro message hmessage
  obtain ⟨round, hround, hmem⟩ := List.mem_flatMap.mp hmessage
  rcases List.mem_pair.mp hmem with rfl | rfl
  · exact provider.distinct_turnValue (h round hround)
  · exact provider.distinct_resultValue round.result

/-- A message that is not empty is added last. -/
theorem addInteraction_interactions (progress : Progress) {message : String}
    (h : message ≠ "") :
    (progress.addInteraction (some message)).interactions = progress.interactions ++ [message] := by
  simp [Progress.addInteraction, h]

theorem print_obj_ne (members : Fields Json) (layout : Json.Layout) :
    (Json.obj members).print layout ≠ "" := by
  intro hempty
  have hchars := congrArg String.toList hempty
  simp [Json.print, Json.chars] at hchars

namespace Plan

/-! ## What a round adds -/

/-- A round in which the model asks for a tool: its reply is read as a turn that is no answer, and
what the tool did bears the identifier of that turn. -/
structure Asked (plan : Plan) (round : Round) : Prop where
  read : plan.turnOf round.reply = .ok round.turn
  unanswered : round.turn.finalAnswer = none
  toolCallId : round.observation.toolCallId = round.turn.toolCallId

/-- An observation carries the id of its call. -/
theorem toolCallId_of_observed {plan : Plan} {turn : Reply.Turn} {history : History}
    {observation : Tool.Observation} (h : plan.Observed turn history observation) :
    observation.toolCallId = turn.toolCallId := by
  cases h with
  | unsupported => rfl
  | refused => rfl
  | ran _ _ answer => cases answer <;> rfl

/-- In every round a tool was asked for. -/
theorem asked_of_playsAll {plan : Plan} {progress : Progress} {rounds : List Round}
    {history : History} (h : plan.PlaysAll progress rounds history) :
    ∀ round ∈ rounds, plan.Asked round := by
  intro round hround
  obtain ⟨before, part, hplays⟩ := exists_plays_of_mem h round hround
  obtain ⟨told, observed, toldAgain, _, _, -, -, hobserved, -⟩ := hplays.parts
  exact ⟨hplays.read, hplays.unanswered, toolCallId_of_observed hobserved⟩

@[simp] theorem reported_interactions (plan : Plan) (progress : Progress)
    (observation : Tool.Observation) :
    (plan.reported progress observation).interactions = progress.interactions := by
  obtain ⟨info, h⟩ := plan.reported_eq progress observation
  rw [h]

section

variable {plan : Plan} {provider : Provider} (hprovider : plan.provider = some provider)
  (hpaths : plan.config.paths = provider.pathChoices.complete)

include hprovider hpaths

/-- A turn that is no answer is added to the messages. -/
theorem afterTurn_interactions (progress : Progress) {round : Round} (h : plan.Asked round) :
    (plan.afterTurn progress round.reply round.turn).interactions =
      progress.interactions ++ [(provider.turnValue round.reply.toJson).print Json.spaced] := by
  obtain ⟨-, hread⟩ := Reply.interpret_eq_ok.mp h.read
  rw [hpaths] at hread
  obtain ⟨⟨members, hobject⟩, hturn⟩ := Provider.modelTurn_of_open hread h.unanswered
  have hne : (provider.turnValue round.reply.toJson).print Json.spaced ≠ "" := by
    rw [hobject]
    exact print_obj_ne members Json.spaced
  rw [afterTurn, beforeStep, hprovider, Option.bind_some, hturn, Progress.addStep,
    addInteraction_interactions _ hne]
  rfl

/-- **A round adds its two messages.** -/
theorem after_interactions (progress : Progress) {round : Round} (h : plan.Asked round) :
    (plan.after progress round).interactions =
      progress.interactions ++ (messagesOf provider round).map (Json.print Json.spaced) := by
  have hwrap : wrap plan.config plan.provider round.observation =
      some ((provider.resultValue round.result).print Json.spaced) := by
    rw [hprovider, wrap, h.toolCallId]
    simp only [Provider.resultMessages_singleton]
    rfl
  have hne : (provider.resultValue round.result).print Json.spaced ≠ "" := by
    cases provider <;> exact print_obj_ne _ _
  rw [after, afterTool, noted, hwrap, Progress.enter, Progress.addStep,
    addInteraction_interactions _ hne]
  simp [Progress.enter, afterTurn_interactions hprovider hpaths progress h, messagesOf]

/-- Rounds add their messages in order, by induction on them. -/
theorem afterAll_interactions (progress : Progress) {rounds : List Round}
    (h : ∀ round ∈ rounds, plan.Asked round) :
    (plan.afterAll progress rounds).interactions = progress.interactions ++
      (rounds.flatMap (messagesOf provider)).map (Json.print Json.spaced) := by
  induction rounds generalizing progress with
  | nil => simp
  | cons round rounds ih =>
      rw [List.forall_mem_cons] at h
      rw [afterAll_cons, ih _ h.2, after_interactions hprovider hpaths progress h.1,
        List.flatMap_cons, List.map_append, List.append_assoc]

end

/-- What a call carries, if the parameters of the model have no messages of their own. -/
theorem interactionsOf_callParameters {plan : Plan}
    (hparameters : Fields.get? plan.modelParameters "_interactions" = none) (progress : Progress)
    (answer : Except Failure Reply) :
    interactionsOf (plan.callParameters progress, answer) =
      if progress.interactions = [] then none
      else some (.str (", " ++ ", ".intercalate progress.interactions)) := by
  have hprompt (text : Json) :
      Fields.get? (Fields.put plan.modelParameters "prompt" text) "_interactions" = none := by
    rw [Fields.get?_put_of_ne _ _ (by decide), hparameters]
  simp only [interactionsOf, callParameters, List.isEmpty_iff]
  split
  · exact hprompt _
  · rw [Fields.get?_put_self]

/-! ## The calls of a session -/

/-- Every call is made with the parameters that the rounds before it lead to. -/
theorem callParameters_of_playsAll {plan : Plan} {rounds : List Round} :
    ∀ {progress : Progress} {history : History}, plan.PlaysAll progress rounds history →
      (modelCalls history).map Prod.fst ++ [plan.callParameters (plan.afterAll progress rounds)] =
        rounds.inits.map fun first => plan.callParameters (plan.afterAll progress first) := by
  induction rounds with
  | nil =>
      intro progress history h
      cases h
      rfl
  | cons round rounds ih =>
      intro progress history h
      obtain ⟨first, rest, rfl, hfirst, hrest⟩ := h
      rw [modelCalls_append, List.map_append, modelCalls_of_plays hfirst, List.append_assoc,
        List.map_cons, List.map_nil, afterAll_cons, ih hrest, List.inits_cons, List.map_cons,
        List.map_map]
      rfl

/-- **The calls of a session** are made before its rounds and after the last of them, and what came
back from all but the last one are the replies of the rounds. -/
theorem modelCalls_of_run {plan : Plan} {progress : Progress} {result : Except Failure Result}
    {history : History} (h : plan.run.Yields history (progress, result)) :
    ∃ rounds played rest last, history = played ++ rest ∧ plan.PlaysAll {} rounds played ∧
      (modelCalls history).map Prod.fst =
        (rounds.inits.map fun first => plan.callParameters (plan.afterAll {} first)) ∧
      (modelCalls history).map Prod.snd =
        (rounds.map fun round => .ok round.reply) ++ [last] := by
  obtain ⟨rounds, played, last, rest, decided, decision, outcome, rfl, hplayed, hlast, -, hrest,
    -⟩ := run_rounds h
  obtain ⟨answer, hone⟩ := modelCalls_of_consultation hlast
  refine ⟨rounds, played, last ++ rest, answer, rfl, hplayed, ?_, ?_⟩
  · rw [modelCalls_append, modelCalls_append, hone, hrest, List.append_nil, List.map_append]
    exact callParameters_of_playsAll hplayed
  · rw [modelCalls_append, modelCalls_append, hone, hrest, List.append_nil, List.map_append,
      replies_of_playsAll hplayed]
    rfl

/-- The call after `k` rounds is made with the parameters that these lead to. -/
theorem callParameters_of_getElem? {plan : Plan} {rounds : List Round} {progress : Progress}
    {calls : List (Fields Json × Except Failure Reply)}
    (hparams : calls.map Prod.fst =
      rounds.inits.map fun first => plan.callParameters (plan.afterAll progress first))
    {k : Nat} {call : Fields Json × Except Failure Reply} (hcall : calls[k]? = some call) :
    k ≤ rounds.length ∧ call.1 = plan.callParameters (plan.afterAll progress (rounds.take k)) := by
  have hk : k < rounds.inits.length := by
    have hlength := congrArg List.length hparams
    rw [List.length_map, List.length_map] at hlength
    rw [← hlength]
    exact (List.getElem?_eq_some_iff.mp hcall).1
  have hfst := congrArg (fun params => params[k]?) hparams
  simp only [List.getElem?_map, hcall, Option.map_some, List.getElem?_eq_getElem hk,
    List.getElem_inits] at hfst
  rw [List.length_inits] at hk
  exact ⟨by omega, Option.some.inj hfst⟩

/-- **What the call after some rounds carries**, if it carries anything, are texts of their
messages. -/
theorem carries_after {plan : Plan} {provider : Provider}
    (hprovider : plan.provider = some provider)
    (hpaths : plan.config.paths = provider.pathChoices.complete)
    (hparameters : Fields.get? plan.modelParameters "_interactions" = none) {rounds : List Round}
    (hasked : ∀ round ∈ rounds, plan.Asked round)
    (hdistinct : ∀ round ∈ rounds, round.reply.toJson.Distinct) (answer : Except Failure Reply) :
    let call := (plan.callParameters (plan.afterAll {} rounds), answer)
    (rounds.length = 0 → interactionsOf call = none) ∧
      (0 < rounds.length → ∃ entries : List String, entries.length = 2 * rounds.length ∧
        interactionsOf call = some (.str (", " ++ ", ".intercalate entries)) ∧
        entries.map Json.read? = (rounds.flatMap (messagesOf provider)).map some ∧
        Json.read? ("[" ++ ", ".intercalate entries ++ "]") =
          some (.arr (rounds.flatMap (messagesOf provider)))) := by
  have hinteractions : (plan.afterAll {} rounds).interactions =
      (rounds.flatMap (messagesOf provider)).map (Json.print Json.spaced) :=
    afterAll_interactions hprovider hpaths {} hasked
  have hcarried := interactionsOf_callParameters hparameters (plan.afterAll {} rounds) answer
  rw [hinteractions] at hcarried
  have hlength := length_messagesOf provider rounds
  -- There is no text in the list exactly when there was no round: each round puts in two.
  have hempty : (rounds.flatMap (messagesOf provider)).map (Json.print Json.spaced) = [] ↔
      rounds.length = 0 := by
    rw [List.map_eq_nil_iff, ← List.length_eq_zero_iff, hlength]
    omega
  have hvalues := distinct_messagesOf provider hdistinct
  constructor
  · intro hnone
    exact hcarried.trans (if_pos (hempty.mpr hnone))
  · intro hpos
    refine ⟨_, by rw [List.length_map, hlength], ?_, ?_, Json.read?_items hvalues⟩
    · exact hcarried.trans (if_neg fun hnil => hpos.ne' (hempty.mp hnil))
    · rw [List.map_map]
      exact List.map_congr_left fun message hmessage => Json.read?_print (hvalues message hmessage)

/-- **The messages of a session.**  Let a session have a provider and read its replies where that
provider keeps their parts, and let the parameters of its model carry no messages.  Whatever the
world answers, as long as no object of a reply has a name twice, each call but the last one is
followed by a round, in which the model asks for a tool.

The first call carries no messages.  A call after `k` rounds carries two for each of them, which,
put between brackets, are read as a list.  It alternates between what the model has said in a round
and what is handed back to it.  The latter carries exactly the text of the observation and the
identifier that was read from the reply, which is empty where there is none. -/
theorem run_alternates {plan : Plan} {provider : Provider}
    (hprovider : plan.provider = some provider)
    (hpaths : plan.config.paths = provider.pathChoices.complete)
    (hparameters : Fields.get? plan.modelParameters "_interactions" = none)
    (world : Dialogue.World Request Request.Answer) :
    let history := (plan.run.play world).1
    (∀ call ∈ modelCalls history, ∀ reply, call.2 = .ok reply → reply.toJson.Distinct) →
    ∃ rounds : List Round,
      (∃ played rest, history = played ++ rest ∧ plan.PlaysAll {} rounds played) ∧
      (∃ last, (modelCalls history).map Prod.snd =
        (rounds.map fun round => .ok round.reply) ++ [last]) ∧
      (∀ round ∈ rounds, plan.turnOf round.reply = .ok round.turn ∧
        provider.carried? (provider.resultValue round.result) =
          some ⟨round.turn.toolCallId.getD "", round.observation.text⟩) ∧
      ∀ k call, (modelCalls history)[k]? = some call →
        (k = 0 → interactionsOf call = none) ∧
        (0 < k → ∃ entries : List String, entries.length = 2 * k ∧
          interactionsOf call = some (.str (", " ++ ", ".intercalate entries)) ∧
          entries.map Json.read? = ((rounds.take k).flatMap (messagesOf provider)).map some ∧
          Json.read? ("[" ++ ", ".intercalate entries ++ "]") =
            some (.arr ((rounds.take k).flatMap (messagesOf provider)))) := by
  have hyields := Dialogue.play_yields world plan.run
  -- The world has no part in what follows: it holds of every history that the session can have.
  generalize plan.run.play world = played at hyields
  obtain ⟨history, progress, outcome⟩ := played
  dsimp only at hyields ⊢
  intro hreplies
  obtain ⟨rounds, played, rest, last, hhistory, hplayed, hparams, hanswers⟩ :=
    modelCalls_of_run hyields
  have hasked := asked_of_playsAll hplayed
  refine ⟨rounds, ⟨played, rest, hhistory, hplayed⟩, ⟨last, hanswers⟩,
    fun round hround => ⟨(hasked round hround).read, provider.carried?_resultValue _⟩, ?_⟩
  have hdistinct : ∀ round ∈ rounds, round.reply.toJson.Distinct := by
    intro round hround
    have hmem : Except.ok round.reply ∈ (modelCalls history).map Prod.snd := by
      rw [hanswers]
      exact List.mem_append_left _ (List.mem_map_of_mem hround)
    obtain ⟨call, hcall, heq⟩ := List.mem_map.mp hmem
    exact hreplies call hcall round.reply heq
  intro k call hcall
  obtain ⟨hk, hparams⟩ := callParameters_of_getElem? hparams hcall
  have hearlier {round : Round} (hround : round ∈ rounds.take k) : round ∈ rounds :=
    List.mem_of_mem_take hround
  have hlength : (rounds.take k).length = k := List.length_take_of_le hk
  have hcarries := carries_after hprovider hpaths hparameters
    (fun round hround => hasked round (hearlier hround))
    (fun round hround => hdistinct round (hearlier hround)) call.2
  rw [← hparams, hlength] at hcarries
  exact hcarries

/-- A session that speaks the protocol of chat completions. -/
def chat : Plan where
  session := { question := "1 + 1?" }
  model := "m"
  config := { Config.initial with pathChoices := Provider.chatCompletions.pathChoices }
  prompt := ""
  tools := []
  modelParameters := []
  remembers := false
  provider := some .chatCompletions

/-- The call of a tool that is not there. -/
def chatCall : Json :=
  .obj [("tool_calls", .arr [.obj [("id", .str "a"), ("function", .obj [("name", .str "sum")])]])]

/-- A reply of chat completions. -/
def chatReply (message : Json) (reason : String) : Reply :=
  .object [("choices", .arr [.obj [("message", message), ("finish_reason", .str reason)]])]

/-- A world whose model asks for a tool and then answers. -/
def chatWorld : Dialogue.World Request Request.Answer := fun past request =>
  match request with
  | .callModel _ _ =>
    if past.isEmpty then .ok (chatReply chatCall "tool_calls")
    else .ok (chatReply (.obj [("content", .str "2")]) "stop")
  | .memory (.append _ _ _) => .ok ""
  | .memory (.update _ _) => .ok ()
  | .memory (.createSession _) => .ok ""
  | .memory (.recent _ _) => .ok []
  | .memory (.traces _) => .ok []
  | .buildTool _ => .ok ⟨none, []⟩
  | .runTool _ _ => .ok .null
  | .closeTool _ => .ok ()
  | .discover _ _ => .ok []

/-- The second call of a session of two: it carries the request for the tool and what became of
it. -/
theorem run_alternates_chat :
    ∃ call text entries, (modelCalls (chat.run.play chatWorld).1)[1]? = some call ∧
      interactionsOf call = some (.str (", " ++ ", ".intercalate entries)) ∧
      Json.read? ("[" ++ ", ".intercalate entries ++ "]") = some (.arr
        [chatCall, .obj
          [("role", .str "tool"), ("content", .str text), ("tool_call_id", .str "a")]]) := by
  have hsnd : (modelCalls (chat.run.play chatWorld).1).map Prod.snd =
      [.ok (chatReply chatCall "tool_calls"),
        .ok (chatReply (.obj [("content", .str "2")]) "stop")] := by
    rfl
  have hdistinct : ∀ call ∈ modelCalls (chat.run.play chatWorld).1, ∀ reply,
      call.2 = .ok reply → reply.toJson.Distinct := by
    intro call hcall reply hreply
    have hmem : call.2 ∈ (modelCalls (chat.run.play chatWorld).1).map Prod.snd :=
      List.mem_map_of_mem hcall
    rw [hsnd, hreply] at hmem
    rcases List.mem_pair.mp hmem with heq | heq <;> cases heq <;>
      simp [chatReply, chatCall, Reply.toJson, Fields.names]
  have hread : ((chat.turnOf (chatReply chatCall "tool_calls")).toOption.bind
      fun turn => turn.toolCallId) = some "a" := by
    decide +kernel
  have hvalue : Provider.chatCompletions.turnValue (chatReply chatCall "tool_calls").toJson =
      chatCall := by
    rfl
  obtain ⟨rounds, -, ⟨last, hanswers⟩, hrounds, hcalls⟩ :=
    run_alternates rfl rfl rfl chatWorld hdistinct
  -- Two calls are one round and the call after it.
  rw [hsnd] at hanswers
  obtain ⟨round, rfl⟩ : ∃ round, rounds = [round] := by
    have hlength := congrArg List.length hanswers
    rw [List.length_append, List.length_map] at hlength
    exact List.length_eq_one_iff.mp (by simpa using hlength.symm)
  have hreply : chatReply chatCall "tool_calls" = round.reply :=
    Except.ok.inj (List.cons.inj hanswers).1
  obtain ⟨call, hcall⟩ : ∃ call, (modelCalls (chat.run.play chatWorld).1)[1]? = some call := by
    have hlength := congrArg List.length hsnd
    rw [List.length_map] at hlength
    exact ⟨_, List.getElem?_eq_getElem (by rw [hlength]; decide)⟩
  obtain ⟨entries, -, hcarried, -, hlist⟩ := (hcalls 1 call hcall).2 Nat.one_pos
  obtain ⟨hturn, -⟩ := hrounds round (List.mem_singleton_self round)
  rw [← hreply] at hturn
  rw [hturn] at hread
  have hid : round.turn.toolCallId = some "a" := hread
  refine ⟨call, round.observation.text, entries, hcall, hcarried, hlist.trans ?_⟩
  simp [messagesOf, ← hreply, hvalue, Provider.resultValue, Round.result, hid]

end Plan

end ReAct.Session
