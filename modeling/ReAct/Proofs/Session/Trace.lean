import ReAct.Config
import ReAct.Proofs.Session.Budget
import ReAct.Proofs.Session.Store

/-!
# The trace of a session

Everything that a session accumulates tells one and the same history.  Its rounds, and a last turn
that was left unanswered if the budget was spent, determine the steps of its trace, the responses
that a verbose session delivers, the outputs that are reported with the answer, and the
interactions that memory is left with (`run_keeps_record`).

## Main Definitions

* `numbered`: steps with their numbers
* `Plan.steps`: the steps of some rounds and of a turn that was left unanswered
* `Plan.openTurns`: the turns of a history that are no answers
* `Plan.reports`: the texts that some rounds report under a name
-/

namespace ReAct.Session

/-! ## Numbered steps -/

/-- Steps with their numbers, which start at one. -/
def numbered (steps : List (Int → TraceStep)) : List TraceStep :=
  steps.mapIdx fun i step => step (i + 1)

@[simp] theorem length_numbered (steps : List (Int → TraceStep)) :
    (numbered steps).length = steps.length :=
  List.length_mapIdx

/-- A step gets the number that comes next. -/
theorem numbered_concat (steps : List (Int → TraceStep)) (step : Int → TraceStep) :
    numbered (steps ++ [step]) = numbered steps ++ [step (steps.length + 1)] :=
  List.mapIdx_concat

/-- Steps that do not choose their number are numbered from one on. -/
theorem numbers_numbered {steps : List (Int → TraceStep)}
    (h : ∀ step ∈ steps, ∀ number, (step number).number = number) :
    (numbered steps).map TraceStep.number =
      (List.range steps.length).map fun i : Nat => (i : Int) + 1 := by
  induction steps using List.reverseRecOn with
  | nil => rfl
  | append_singleton steps step ih =>
      rw [numbered_concat, List.map_append, ih fun other hother => h other (by simp [hother]),
        List.length_append, List.length_singleton, List.range_succ, List.map_append]
      simp [h step (by simp)]

/-- The texts of the items of a result that are responses. -/
def responses (outputs : List OutputItem) : List (Option String) :=
  (outputs.filter fun item => item.name == "response").map OutputItem.result

/-- Texts that are listed under a name, if there are any. -/
def listed (texts : List String) : Option (List String) :=
  if texts = [] then none else some texts

namespace Plan

/-- The step of a turn that is no answer. -/
def turnStep (plan : Plan) (turn : Reply.Turn) (number : Int) : TraceStep :=
  ⟨number, "LLM", some plan.session.question, turn.source⟩

/-- The step of an observation. -/
def observationStep (round : Round) (number : Int) : TraceStep :=
  ⟨number, "ReAct", round.turn.actionInput, some round.observation.text⟩

/-- The steps of a round. -/
def roundSteps (plan : Plan) (round : Round) : List (Int → TraceStep) :=
  [plan.turnStep round.turn, observationStep round]

/-- The steps of some rounds, and of a turn after them that was left unanswered. -/
def steps (plan : Plan) (rounds : List Round) (unanswered : Option Reply.Turn) :
    List (Int → TraceStep) :=
  rounds.flatMap plan.roundSteps ++ unanswered.toList.map plan.turnStep

/-- The steps of a session do not choose theirs. -/
theorem number_of_mem_steps {plan : Plan} {rounds : List Round}
    {unanswered : Option Reply.Turn} {step : Int → TraceStep}
    (h : step ∈ plan.steps rounds unanswered) (number : Int) : (step number).number = number := by
  simp only [steps, roundSteps, List.mem_append, List.mem_flatMap, List.mem_cons,
    List.not_mem_nil, or_false, List.mem_map] at h
  rcases h with ⟨round, -, rfl | rfl⟩ | ⟨turn, -, rfl⟩ <;> rfl

/-- A turn that has been read is traced. -/
theorem afterTurn_trace (plan : Plan) {progress : Progress} {before : List (Int → TraceStep)}
    (h : progress.trace = numbered before) (reply : Reply) (turn : Reply.Turn) :
    (plan.afterTurn progress reply turn).trace = numbered (before ++ [plan.turnStep turn]) := by
  rw [numbered_concat, ← h]
  simp [afterTurn, Progress.addStep, beforeStep, called, Progress.enter, turnStep,
    Progress.nextNumber, h]

/-- A round is traced as its turn and its observation. -/
theorem after_trace (plan : Plan) {progress : Progress} {before : List (Int → TraceStep)}
    (h : progress.trace = numbered before) (round : Round) :
    (plan.after progress round).trace = numbered (before ++ plan.roundSteps round) := by
  have hturn := plan.afterTurn_trace h round.reply round.turn
  have hlength := congrArg List.length hturn
  rw [length_numbered] at hlength
  rw [roundSteps, List.append_cons, numbered_concat, ← hturn]
  simp [after, afterTool, Progress.addStep, noted, Progress.enter, observationStep,
    Progress.nextNumber, hlength]

/-- Rounds are traced in order, by induction on them. -/
theorem afterAll_trace (plan : Plan) {progress : Progress} {before : List (Int → TraceStep)}
    (h : progress.trace = numbered before) (rounds : List Round) :
    (plan.afterAll progress rounds).trace =
      numbered (before ++ rounds.flatMap plan.roundSteps) := by
  induction rounds generalizing progress before with
  | nil => simpa using h
  | cons round rounds ih =>
      rw [afterAll_cons, ih (plan.after_trace h round), List.flatMap_cons, List.append_assoc]

/-! ## Turns -/

/-- The turn that a call of the model has led to, if it is no answer. -/
def openTurn? (plan : Plan) (call : Fields Json × Except Failure Reply) : Option Reply.Turn :=
  match call.2 with
  | .error _ => none
  | .ok reply =>
    match plan.turnOf reply with
    | .error _ => none
    | .ok turn => if turn.isFinal then none else some turn

/-- The turns of a history that are no answers. -/
def openTurns (plan : Plan) (history : History) : List Reply.Turn :=
  (modelCalls history).filterMap plan.openTurn?

theorem openTurns_append (plan : Plan) (first second : History) :
    plan.openTurns (first ++ second) = plan.openTurns first ++ plan.openTurns second := by
  rw [openTurns, modelCalls_append, List.filterMap_append]
  rfl

/-- A call counts as a turn if its reply is read as one that does not answer. -/
theorem openTurn?_of_read {plan : Plan} {reply : Reply} {turn : Reply.Turn}
    (hread : plan.turnOf reply = .ok turn) (parameters : Fields Json) :
    plan.openTurn? (parameters, .ok reply) =
      if turn.isFinal then none else some turn := by
  simp [openTurn?, hread]

/-- What memory is told after a call adds no turn. -/
theorem openTurns_of_call {plan : Plan} {reply : Reply} {turn : Reply.Turn} {told : History}
    (hread : plan.turnOf reply = .ok turn) (progress : Progress)
    (htold : ∀ event ∈ told, isMemory event) :
    plan.openTurns (plan.call progress (.ok reply) :: told) =
      if turn.isFinal then [] else [turn] := by
  rw [openTurns, modelCalls_call, modelCalls_eq_nil htold]
  cases hfinal : turn.isFinal <;> simp [openTurn?_of_read hread, hfinal]

/-- The calls of some rounds have the turns of these rounds, by induction on them. -/
theorem openTurns_of_playsAll {plan : Plan} {progress : Progress} {rounds : List Round}
    {history : History} (h : plan.PlaysAll progress rounds history) :
    plan.openTurns history = rounds.map Round.turn := by
  induction rounds generalizing progress history with
  | nil =>
      cases h
      rfl
  | cons round rounds ih =>
      obtain ⟨first, rest, rfl, hfirst, hrest⟩ := h
      rw [openTurns_append, ih hrest, openTurns, modelCalls_of_plays hfirst,
        List.filterMap_cons_some (b := round.turn)]
      · rfl
      · simp [openTurn?_of_read hfirst.read, Reply.Turn.isFinal, hfirst.unanswered]

/-! ## Reported outputs -/

/-- The texts that some rounds report under a name: the observations of the tools whose outputs are
reported under it. -/
def reports (plan : Plan) (rounds : List Round) (key : String) : List String :=
  rounds.filterMap fun round =>
    (plan.tool? (round.turn.action.getD "")).bind fun tool =>
      if tool.spec.includeOutput ∧ tool.name ++ ".output" = key then some round.observation.text
      else none

/-- An observation names the tool that was asked for, whether there is one or not. -/
theorem toolName_of_observed {plan : Plan} {turn : Reply.Turn} {history : History}
    {observation : Tool.Observation} (h : plan.Observed turn history observation) :
    observation.toolName = turn.action.getD "" := by
  have hnamed {tool : Tool.Entry} (hsome : plan.requested? turn = some tool) :
      tool.name = turn.action.getD "" := by
    obtain ⟨name, haction, hname⟩ := Option.bind_eq_some_iff.mp hsome
    rw [haction]
    split at hname
    · cases hname
    · simpa using List.find?_some hname
  cases h with
  | unsupported => rfl
  | refused hsome => exact hnamed hsome
  | ran hsome haccepts answer =>
      cases answer <;> exact hnamed hsome

@[simp] theorem addInteraction_additionalInfo (progress : Progress) (message : Option String) :
    (progress.addInteraction message).additionalInfo = progress.additionalInfo := by
  obtain ⟨messages, h⟩ := progress.addInteraction_eq message
  rw [h]

/-- What is reported after some rounds: under every name the texts that these report under it, and
no name twice. -/
def Reported (progress : Progress) (texts : String → List String) : Prop :=
  progress.additionalInfo.names.Nodup ∧
    ∀ key, Fields.get? progress.additionalInfo key = listed (texts key)

/-- One more report comes last under its name. -/
theorem Reported.report {progress : Progress} {texts : String → List String}
    (h : Reported progress texts) (name output : String) :
    Reported (progress.report name output) fun key =>
      if name = key then texts key ++ [output] else texts key := by
  obtain ⟨hnodup, htexts⟩ := h
  refine ⟨Fields.nodup_names_put _ _ hnodup, fun key => ?_⟩
  have hold : (Fields.get? progress.additionalInfo name).getD [] = texts name := by
    rw [htexts, listed]
    split
    · rename_i hnone
      rw [hnone]
      rfl
    · rfl
  by_cases hkey : name = key
  · subst hkey
    simp [Progress.report, Fields.get?_put_self, hold, listed]
  · simp [Progress.report, Fields.get?_put_of_ne _ _ (Ne.symm hkey), htexts, hkey]

/-- Only the reports themselves count. -/
theorem Reported.congr {progress next : Progress} {texts more : String → List String}
    (h : Reported progress texts) (hinfo : next.additionalInfo = progress.additionalInfo)
    (hmore : ∀ key, more key = texts key) : Reported next more := by
  obtain ⟨hnodup, htexts⟩ := h
  exact ⟨by rwa [hinfo], fun key => by rw [hinfo, htexts, hmore]⟩

/-- A round reports the output of its tool if that is wanted, and only if the tool returned. -/
theorem Reported.after {plan : Plan} {progress : Progress} {texts : String → List String}
    (h : Reported progress texts) {round : Round} {history : History}
    (hobserved : plan.Observed round.turn history round.observation) :
    Reported (plan.after progress round) fun key => texts key ++ plan.reports [round] key := by
  have hafter : (plan.after progress round).additionalInfo =
      (plan.reported ((plan.afterTurn progress round.reply round.turn).enter
        .toolRunning |>.enter .folded) round.observation).additionalInfo := by
    simp [Plan.after, afterTool, noted, Progress.addStep, Progress.enter]
  have hturn : Reported (((plan.afterTurn progress round.reply round.turn).enter
      .toolRunning).enter .folded) texts :=
    h.congr (by simp [afterTurn, Progress.addStep, beforeStep, called, Progress.enter])
      fun _ => rfl
  have hname := toolName_of_observed hobserved
  unfold reported at hafter
  unfold reports
  rw [hname] at hafter
  -- Only a tool that reports its output adds a text, and only under its own key.
  cases htool : plan.tool? (round.turn.action.getD "") with
  | none =>
      rw [htool] at hafter
      exact hturn.congr hafter fun key => by simp [htool]
  | some tool =>
      rw [htool] at hafter
      cases hreports : tool.spec.includeOutput with
      | false =>
          exact hturn.congr (by simpa [hreports] using hafter) fun key => by simp [htool, hreports]
      | true =>
          refine (hturn.report (tool.name ++ ".output") round.observation.text).congr
            (by simpa [hreports] using hafter) fun key => ?_
          by_cases hkey : tool.name ++ ".output" = key <;> simp [htool, hreports, hkey]

/-- The reports of some rounds, by induction on the rounds. -/
theorem reported_of_playsAll {plan : Plan} {progress : Progress} {texts : String → List String}
    (hreported : Reported progress texts) {rounds : List Round} {history : History}
    (h : plan.PlaysAll progress rounds history) :
    Reported (plan.afterAll progress rounds) fun key => texts key ++ plan.reports rounds key := by
  induction rounds generalizing progress texts history with
  | nil => exact hreported.congr rfl fun key => by simp [reports]
  | cons round rounds ih =>
      obtain ⟨first, rest, rfl, hfirst, hrest⟩ := h
      obtain ⟨told, observed, toldAgain, _, _, -, -, hobserved, -⟩ := hfirst.parts
      refine (ih (hreported.after hobserved) hrest).congr rfl fun key => ?_
      rw [List.append_assoc, reports, reports, reports, ← List.filterMap_append]
      rfl

/-! ## The whole session -/

/-- How a session that returns ends: with an answer, or with a turn that is left unanswered because
the budget is spent. -/
theorem ending_trace {plan : Plan} {progress next final : Progress} {left : Nat}
    {decision : Decision} {answer : String} {history : History}
    {before : List (Int → TraceStep)} (htrace : progress.trace = numbered before)
    (h : plan.Consultation progress history next decision)
    (hending : plan.Ending left next decision final (.ok answer)) :
    ∃ unanswered : Option Reply.Turn,
      plan.openTurns history = unanswered.toList ∧
        (unanswered.isSome ↔ final.phase = .budgetSpent) ∧
          final.trace = numbered (before ++ unanswered.toList.map plan.turnStep) ∧
            final.additionalInfo = progress.additionalInfo := by
  -- A final answer leaves no step; a call that the budget cut off leaves the model's.
  cases hending with
  | answered =>
      cases h with
      | @answered reply turn _ hread hanswer =>
          refine ⟨none, ?_, ?_, ?_, rfl⟩
          · simp [openTurns_of_call hread, Reply.Turn.isFinal, hanswer]
          · simp [Progress.phase, Progress.enter]
          · simpa [called, Progress.enter] using htrace
  | @spent _ turn =>
      cases h with
      | @toolCall reply _ told hread hopen htold =>
          refine ⟨some turn, ?_, ?_, ?_, ?_⟩
          · simp [openTurns_of_call hread progress (isMemory_of_tells htold), Reply.Turn.isFinal,
              hopen]
          · simp [Progress.phase, Progress.enter]
          · exact plan.afterTurn_trace htrace reply turn
          · simp [afterTurn, Progress.addStep, beforeStep, called, Progress.enter]

/-- A verbose session hands out the responses of its trace and then the answer. -/
theorem responses_of_outputs {plan : Plan} (hverbose : plan.config.verbose = true)
    (progress : Progress) (answer : String) :
    responses (plan.outputs progress answer) =
      progress.trace.map TraceStep.response ++ [some answer] := by
  have hsteps : ((progress.trace.map fun step =>
      ({ name := "response", result := step.response } : OutputItem)).filter
        fun item => item.name == "response").map OutputItem.result =
      progress.trace.map TraceStep.response := by
    induction progress.trace with
    | nil => rfl
    | cons step rest ih => simpa using ih
  simp [responses, outputs, hverbose, hsteps]

/-- What a session that returns has accumulated: its rounds and the turn that was left unanswered
determine all of it. -/
structure Accounted (plan : Plan) (history : History) (progress : Progress) (result : Result)
    (rounds : List Round) (unanswered : Option Reply.Turn) : Prop where
  played : ∃ played rest, history = played ++ rest ∧ plan.PlaysAll {} rounds played
  turns : plan.openTurns history = rounds.map Round.turn ++ unanswered.toList
  unanswered_iff : unanswered.isSome ↔ result.terminalPhase = .budgetSpent
  trace : progress.trace = numbered (plan.steps rounds unanswered)
  info : result.additionalInfo = progress.additionalInfo
  reported : Reported progress (plan.reports rounds)
  outputs : result.outputs = plan.outputs progress result.finalAnswer

/-- Every session that returns can be accounted for. -/
theorem run_accounted {plan : Plan} {progress : Progress} {result : Result} {history : History}
    (h : plan.run.Yields history (progress, .ok result)) :
    ∃ rounds unanswered, plan.Accounted history progress result rounds unanswered := by
  obtain ⟨rounds, played, last, rest, decided, decision, outcome, rfl, hplayed, hlast, hending,
    hrest, hresult⟩ := run_rounds h
  obtain ⟨answer, rfl, rfl⟩ := hresult result rfl
  -- The full rounds first, then what the ending adds to their trace.
  have hrounds : (plan.afterAll {} rounds).trace =
      numbered ([] ++ rounds.flatMap plan.roundSteps) :=
    plan.afterAll_trace rfl rounds
  obtain ⟨unanswered, hopen, hphase, htrace, hinfo⟩ := ending_trace hrounds hlast hending
  have hreported : Reported {} fun _ => [] := ⟨List.nodup_nil, fun _ => rfl⟩
  have hsilent : plan.openTurns rest = [] := by
    rw [openTurns, hrest]
    rfl
  refine ⟨rounds, unanswered, ⟨played, last ++ rest, rfl, hplayed⟩, ?_, hphase, htrace, rfl,
    (reported_of_playsAll hreported hplayed).congr hinfo fun _ => rfl, rfl⟩
  rw [openTurns_append, openTurns_append, hsilent, List.append_nil, openTurns_of_playsAll hplayed,
    hopen]

/-- What was added under an interaction has it for its parent. -/
theorem parent_of_places {added : Fields Memory.Interaction} {conversation root : String}
    {entries : List Memory.Entry}
    (h : added.values.map place = entries.map fun entry => (conversation, some root, entry)) :
    ∀ new ∈ added.values, new.parent = some root := by
  intro new hnew
  have hplace : place new ∈ added.values.map place := List.mem_map_of_mem hnew
  rw [h] at hplace
  obtain ⟨entry, -, heq⟩ := List.mem_map.mp hplace
  exact (congrArg (fun place => place.2.1) heq).symm

/-- The numbers of the steps and of the answer rise. -/
theorem Accounted.numbers_rise {plan : Plan} {history : History} {progress : Progress}
    {result : Result} {rounds : List Round} {unanswered : Option Reply.Turn}
    (h : plan.Accounted history progress result rounds unanswered)
    {added : Fields Memory.Interaction} {conversation root : String}
    (hadded : added.values.map place = (progress.trace.map TraceStep.entry ++
      [plan.answerEntry progress result.finalAnswer]).map
        fun entry => (conversation, some root, entry)) :
    (added.values.map fun new => new.entry.traceNumber.getD 0).Pairwise (· ≤ ·) := by
  -- The records are numbered one after the other, from 1.
  have hnumbers : added.values.map (fun new => new.entry.traceNumber.getD 0) =
      (List.range (progress.trace.length + 1)).map fun i : Nat => (i : Int) + 1 := by
    have hnumber := congrArg (List.map fun place => place.2.2.traceNumber.getD 0) hadded
    rw [List.map_map, List.map_map, List.map_append, List.map_map] at hnumber
    have htrace : progress.trace.map TraceStep.number =
        (List.range progress.trace.length).map fun i : Nat => (i : Int) + 1 := by
      rw [h.trace, length_numbered]
      exact numbers_numbered fun step hstep => number_of_mem_steps hstep
    rw [List.range_succ, List.map_append, ← htrace]
    exact hnumber
  rw [hnumbers, List.pairwise_map]
  exact List.pairwise_lt_range.imp fun hlt => by omega

/-- **The record of a session.**  Let a session return, whatever the world answered.  Then its
trace is, turn by turn, a step with the turn and a step with the observation, the latter being
absent exactly for the last turn of a session that spent its budget; and the steps are numbered from
one.  If it is verbose, it delivers the responses of the steps and then the answer.  What it reports
are the observations of the tools that are to be reported, tool by tool and in order, and nothing
else.

If it records its steps and memory never fails, then what it has added under the interaction that it
works on are these steps and then the answer, with the number that comes next. -/
theorem run_keeps_record (plan : Plan) (world : Dialogue.World Request Request.Answer) :
    let (history, progress, outcome) := plan.run.play world
    ∀ result, outcome = .ok result →
      ∃ (rounds : List Round) (unanswered : Option Reply.Turn),
        (∃ played rest, history = played ++ rest ∧ plan.PlaysAll {} rounds played) ∧
        plan.openTurns history = rounds.map Round.turn ++ unanswered.toList ∧
        (unanswered.isSome ↔ result.terminalPhase = .budgetSpent) ∧
        progress.trace = numbered (plan.steps rounds unanswered) ∧
        (plan.config.verbose = true → responses result.outputs =
          progress.trace.map TraceStep.response ++ [some result.finalAnswer]) ∧
        (result.additionalInfo.names.Nodup ∧ ∀ key,
          Fields.get? result.additionalInfo key = listed (plan.reports rounds key)) ∧
        ∀ conversation root, plan.tracePlace? = some (conversation, root) →
          ∀ before after, Remembers before history after → MemoryServes history →
            ∃ (added : Fields Memory.Interaction) (interaction : Memory.Interaction),
              (root, interaction) ∈ before.interactions ∧
              after.interactions = Fields.put before.interactions root
                  (withAnswer interaction result.finalAnswer result.additionalInfo) ++ added ∧
              added.values.map place =
                (progress.trace.map TraceStep.entry ++
                  [plan.answerEntry progress result.finalAnswer]).map
                    (fun entry => (conversation, some root, entry)) ∧
              (before.traces root = [] → after.traces root = added.values) := by
  have hyields := Dialogue.play_yields world plan.run
  generalize plan.run.play world = played at hyields
  obtain ⟨history, progress, outcome⟩ := played
  rintro result rfl
  obtain ⟨rounds, unanswered, haccounted⟩ := run_accounted hyields
  refine ⟨rounds, unanswered, haccounted.played, haccounted.turns, haccounted.unanswered_iff,
    haccounted.trace, fun hverbose => ?_, ?_, ?_⟩
  · rw [haccounted.outputs, responses_of_outputs hverbose]
  · rw [haccounted.info]
    exact haccounted.reported
  · intro conversation root hplace before after hremembers hserves
    obtain ⟨added, interaction, hmem, hafter, hadded⟩ :=
      stored_of_run hplace hyields hremembers hserves
    rw [haccounted.info]
    refine ⟨added, interaction, hmem, hafter, hadded, ?_⟩
    refine Memory.Store.traces_of_append hmem hafter rfl (parent_of_places hadded) ?_
    exact haccounted.numbers_rise hadded

/-- A session with a conversation and an interaction to answer, and without tools. -/
def sums : Plan where
  session := { conversation := some "c", root := some "r", question := "1 + 1?" }
  model := "m"
  config := { Config.initial with pathChoices := { toolCalls := some "calls" } }
  prompt := ""
  tools := []
  modelParameters := []
  remembers := true
  provider := none

/-- A world whose model asks for a tool and then answers, and whose memory names interactions by
what happened before. -/
def sumsWorld : Dialogue.World Request Request.Answer := fun past request =>
  match request with
  | .callModel _ _ =>
    if past.isEmpty then .ok (.object [("calls", .arr [.obj [("name", .str "sum")]])])
    else .ok (.text "2")
  | .memory (.append _ _ _) => .ok (String.ofList (List.replicate past.length 'i'))
  | .memory (.update _ _) => .ok ()
  | .memory (.createSession _) => .ok ""
  | .memory (.recent _ _) => .ok []
  | .memory (.traces _) => .ok []
  | .buildTool _ => .ok ⟨none, []⟩
  | .runTool _ _ => .ok .null
  | .closeTool _ => .ok ()
  | .discover _ _ => .ok []

/-- The names that the memory of `sumsWorld` gives, and its clock. -/
def sumsRegistrar : Memory.Registrar :=
  ⟨fun n => String.ofList (List.replicate n 'i'), ⟨2024, 2, 29, 12, 0, 0, 5, some 0⟩⟩

/-- The store of that memory before the session. -/
def sumsStore : Memory.Store where
  sessions := [(.str "c", .null)]
  interactions := [("r", ⟨{ question := some "1 + 1?" }, "r", "c", none, sumsRegistrar.now⟩)]

/-- The record of one round and an answer. -/
theorem run_keeps_record_sums :
    ∃ result, (sums.run.play sumsWorld).2.2 = .ok result ∧
      ∃ after, Remembers sumsStore (sums.run.play sumsWorld).1 after ∧
        MemoryServes (sums.run.play sumsWorld).1 ∧
          (after.traces "r").map (fun i => (i.parent, i.entry.origin, i.entry.traceNumber,
              i.entry.finalAnswer)) =
            [(some "r", "LLM", some 1, false), (some "r", "ReAct", some 2, false),
              (some "r", "LLM", some 3, true)] := by
  have hremembers : ∃ after, Remembers sumsStore (sums.run.play sumsWorld).1 after :=
    ⟨_, _, rfl, _, ⟨sumsRegistrar, ⟨_, 0⟩, by decide +kernel, rfl, rfl, rfl⟩,
      _, ⟨sumsRegistrar, ⟨_, 1⟩, by decide +kernel, rfl, rfl, rfl⟩,
      _, rfl,
      _, ⟨sumsRegistrar, ⟨_, 3⟩, by decide +kernel, rfl, rfl, rfl⟩,
      _, ⟨sumsRegistrar, ⟨_, 4⟩, by decide +kernel, rfl, rfl, rfl⟩, rfl⟩
  have hserves : MemoryServes (sums.run.play sumsWorld).1 := by
    unfold MemoryServes
    decide +kernel
  obtain ⟨after, hafter⟩ := hremembers
  obtain ⟨result, hresult⟩ : ∃ result, (sums.run.play sumsWorld).2.2 = .ok result := ⟨_, rfl⟩
  obtain ⟨rounds, unanswered, -, -, -, -, -, -, hmemory⟩ :=
    run_keeps_record sums sumsWorld result hresult
  obtain ⟨added, interaction, -, -, hadded, htraces⟩ :=
    hmemory "c" "r" rfl sumsStore after hafter hserves
  have hbefore : sumsStore.traces "r" = [] := by
    simp [Memory.Store.traces, sumsStore, Fields.values]
  refine ⟨result, hresult, after, hafter, hserves, ?_⟩
  rw [htraces hbefore]
  have hplaces := congrArg (List.map fun place => (place.2.1, place.2.2.origin,
    place.2.2.traceNumber, place.2.2.finalAnswer)) hadded
  rw [List.map_map] at hplaces
  exact hplaces.trans rfl

end Plan

end ReAct.Session
