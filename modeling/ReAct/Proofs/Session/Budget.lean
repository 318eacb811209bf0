import Mathlib.Data.List.Infix
import ReAct.Proofs.Session.Round

/-!
# The budget of a session

A session calls its model at most as often as its configuration allows, and runs fewer tools than
that, whatever the world answers.  The count is an invariant of the rounds: each of them calls the
model once, runs at most one tool, goes once through the same four phases and adds one entry to the
scratchpad (`Plan.after_path`, `Plan.after_scratchpad`).  A session that returns has therefore made
one call more than it has folded observations, and its prompts show them one by one.
-/

namespace ReAct.Session

/-- The prompt among the parameters of a call of the model. -/
def promptOf (call : Fields Json × Except Failure Reply) : Option Json :=
  Fields.get? call.1 "prompt"

namespace Plan

/-- Whether a reply is read as the request for a tool. -/
def AsksForTool (plan : Plan) (reply : Reply) : Prop :=
  ∃ turn, plan.turnOf reply = .ok turn ∧ turn.isFinal = false

/-- Whether a reply is read as an answer. -/
def Answers (plan : Plan) (reply : Reply) : Prop :=
  ∃ turn, plan.turnOf reply = .ok turn ∧ turn.isFinal = true

/-- The prompt of a call that is made with the given entries on the scratchpad. -/
def promptWith (plan : Plan) (scratchpad : List String) : Option Json :=
  some (.str (Prompt.renderScratchpad plan.prompt (String.join scratchpad)))

/-- The phases that a round goes through. -/
def roundPhases : List Phase :=
  [.parsed, .toolRunning, .folded, .dispatched]

/-- The entry that a round adds to the scratchpad. -/
def entryOf (plan : Plan) (round : Round) : String :=
  scratchpadEntry plan.config round.turn round.observation

/-! ## What a round adds -/

@[simp] theorem reported_path (plan : Plan) (progress : Progress)
    (observation : Tool.Observation) :
    (plan.reported progress observation).path = progress.path := by
  obtain ⟨info, h⟩ := plan.reported_eq progress observation
  rw [h]

@[simp] theorem reported_calls (plan : Plan) (progress : Progress)
    (observation : Tool.Observation) :
    (plan.reported progress observation).calls = progress.calls := by
  obtain ⟨info, h⟩ := plan.reported_eq progress observation
  rw [h]

@[simp] theorem reported_scratchpad (plan : Plan) (progress : Progress)
    (observation : Tool.Observation) :
    (plan.reported progress observation).scratchpad = progress.scratchpad := by
  obtain ⟨info, h⟩ := plan.reported_eq progress observation
  rw [h]

/-- A turn that has been read is one more phase. -/
@[simp] theorem afterTurn_path (plan : Plan) (progress : Progress) (reply : Reply)
    (turn : Reply.Turn) :
    (plan.afterTurn progress reply turn).path = progress.path ++ [.parsed] := by
  simp [afterTurn, beforeStep, called, Progress.enter]

/-- It has taken one more call. -/
@[simp] theorem afterTurn_calls (plan : Plan) (progress : Progress) (reply : Reply)
    (turn : Reply.Turn) : (plan.afterTurn progress reply turn).calls = progress.calls + 1 := by
  simp [afterTurn, beforeStep, called, Progress.enter]

/-- Nothing is entered on the scratchpad before there is an observation. -/
@[simp] theorem afterTurn_scratchpad (plan : Plan) (progress : Progress) (reply : Reply)
    (turn : Reply.Turn) :
    (plan.afterTurn progress reply turn).scratchpad = progress.scratchpad := by
  simp [afterTurn, beforeStep, called, Progress.enter]

/-- A round goes through all phases once. -/
theorem after_path (plan : Plan) (progress : Progress) (round : Round) :
    (plan.after progress round).path = progress.path ++ roundPhases := by
  simp [after, afterTool, noted, Progress.enter, roundPhases]

/-- A round takes one call. -/
theorem after_calls (plan : Plan) (progress : Progress) (round : Round) :
    (plan.after progress round).calls = progress.calls + 1 := by
  simp [after, afterTool, noted, Progress.enter]

/-- A round enters its observation on the scratchpad. -/
theorem after_scratchpad (plan : Plan) (progress : Progress) (round : Round) :
    (plan.after progress round).scratchpad = progress.scratchpad ++ [plan.entryOf round] := by
  simp [after, afterTool, noted, Progress.enter, entryOf]

/-- Rounds go through the phases again and again, by induction on them. -/
theorem afterAll_path (plan : Plan) (progress : Progress) (rounds : List Round) :
    (plan.afterAll progress rounds).path =
      progress.path ++ (List.replicate rounds.length roundPhases).flatten := by
  induction rounds generalizing progress with
  | nil => simp
  | cons round rounds ih =>
      rw [afterAll_cons, ih, after_path, List.length_cons, List.replicate_succ, List.flatten_cons,
        List.append_assoc]

/-- Rounds take one call each. -/
theorem afterAll_calls (plan : Plan) (progress : Progress) (rounds : List Round) :
    (plan.afterAll progress rounds).calls = progress.calls + rounds.length := by
  induction rounds generalizing progress with
  | nil => rfl
  | cons round rounds ih =>
      rw [afterAll_cons, ih, after_calls, List.length_cons]
      omega

/-- Rounds enter their observations in order. -/
theorem afterAll_scratchpad (plan : Plan) (progress : Progress) (rounds : List Round) :
    (plan.afterAll progress rounds).scratchpad =
      progress.scratchpad ++ rounds.map plan.entryOf := by
  induction rounds generalizing progress with
  | nil => simp
  | cons round rounds ih => rw [afterAll_cons, ih, after_scratchpad]; simp

/-! ## What a round asks -/

/-- Running a tool calls no model. -/
theorem modelCalls_of_observed {plan : Plan} {turn : Reply.Turn} {history : History}
    {observation : Tool.Observation} (h : plan.Observed turn history observation) :
    modelCalls history = [] := by
  cases h <;> rfl

/-- At most one tool is run; none if the tool is missing or refuses its parameters. -/
theorem toolRuns_of_observed {plan : Plan} {turn : Reply.Turn} {history : History}
    {observation : Tool.Observation} (h : plan.Observed turn history observation) :
    (toolRuns history).length ≤ 1 := by
  cases h
  · exact Nat.zero_le 1
  · exact Nat.zero_le 1
  · exact Nat.le_refl 1

theorem modelCalls_call (plan : Plan) (progress : Progress) (answer : Except Failure Reply)
    (rest : History) :
    modelCalls (plan.call progress answer :: rest) =
      (plan.callParameters progress, answer) :: modelCalls rest := rfl

theorem toolRuns_call (plan : Plan) (progress : Progress) (answer : Except Failure Reply)
    (rest : History) : toolRuns (plan.call progress answer :: rest) = toolRuns rest := rfl

/-- In a round there is one model call, with the parameters that the progress makes. -/
theorem modelCalls_of_plays {plan : Plan} {progress : Progress} {round : Round}
    {history : History} (h : plan.Plays progress round history) :
    modelCalls history = [(plan.callParameters progress, .ok round.reply)] := by
  obtain ⟨told, observed, toldAgain, _, _, rfl, htold, hobserved, htoldAgain⟩ := h.parts
  rw [modelCalls_call, modelCalls_append, modelCalls_append,
    modelCalls_eq_nil (isMemory_of_tells htold), modelCalls_of_observed hobserved,
    modelCalls_eq_nil (isMemory_of_tells htoldAgain)]
  rfl

/-- In a round at most one tool is run. -/
theorem toolRuns_of_plays {plan : Plan} {progress : Progress} {round : Round} {history : History}
    (h : plan.Plays progress round history) : (toolRuns history).length ≤ 1 := by
  obtain ⟨told, observed, toldAgain, _, _, rfl, htold, hobserved, htoldAgain⟩ := h.parts
  rw [toolRuns_call, toolRuns_append, toolRuns_append, toolRuns_eq_nil (isMemory_of_tells htold),
    toolRuns_eq_nil (isMemory_of_tells htoldAgain)]
  simpa using toolRuns_of_observed hobserved

/-- In some rounds at most as many tools are run, by induction on the rounds. -/
theorem toolRuns_of_playsAll {plan : Plan} {progress : Progress} {rounds : List Round}
    {history : History} (h : plan.PlaysAll progress rounds history) :
    (toolRuns history).length ≤ rounds.length := by
  induction rounds generalizing progress history with
  | nil =>
      cases h
      exact Nat.le_refl 0
  | cons round rounds ih =>
      obtain ⟨first, rest, rfl, hfirst, hrest⟩ := h
      have hone := toolRuns_of_plays hfirst
      have hmore := ih hrest
      rw [toolRuns_append, List.length_append, List.length_cons]
      omega

/-- What came back from the calls of some rounds: their replies. -/
theorem replies_of_playsAll {plan : Plan} {progress : Progress} {rounds : List Round}
    {history : History} (h : plan.PlaysAll progress rounds history) :
    (modelCalls history).map Prod.snd = rounds.map fun round => .ok round.reply := by
  induction rounds generalizing progress history with
  | nil =>
      cases h
      rfl
  | cons round rounds ih =>
      obtain ⟨first, rest, rfl, hfirst, hrest⟩ := h
      rw [modelCalls_append, List.map_append, modelCalls_of_plays hfirst, ih hrest]
      rfl

/-- The replies of rounds ask for tools. -/
theorem asksForTool_of_playsAll {plan : Plan} {progress : Progress} {rounds : List Round}
    {history : History} (h : plan.PlaysAll progress rounds history) :
    ∀ round ∈ rounds, plan.AsksForTool round.reply := by
  induction rounds generalizing progress history with
  | nil => simp
  | cons round rounds ih =>
      obtain ⟨first, rest, rfl, hfirst, hrest⟩ := h
      intro other hmem
      rcases List.mem_cons.mp hmem with rfl | hmem
      · exact ⟨other.turn, hfirst.read, by simp [Reply.Turn.isFinal, hfirst.unanswered]⟩
      · exact ih hrest other hmem

/-- What a call shows the model is the prompt with the scratchpad so far. -/
theorem promptOf_callParameters (plan : Plan) (progress : Progress)
    (answer : Except Failure Reply) :
    promptOf (plan.callParameters progress, answer) = plan.promptWith progress.scratchpad := by
  unfold promptOf promptWith callParameters
  dsimp only
  split
  · rw [Fields.get?_put_self]
  · rw [Fields.get?_put_of_ne _ _ (by decide), Fields.get?_put_self]

/-- **The prompts of rounds and of the call after them.**  Each shows one entry more than the one
before; the induction keeps what the scratchpad held at the start in front. -/
theorem prompts_of_playsAll {plan : Plan} {rounds : List Round} :
    ∀ {progress : Progress} {history : History}, plan.PlaysAll progress rounds history →
      (modelCalls history).map promptOf ++
          [plan.promptWith (plan.afterAll progress rounds).scratchpad] =
        (rounds.map plan.entryOf).inits.map fun seen =>
          plan.promptWith (progress.scratchpad ++ seen) := by
  induction rounds with
  | nil =>
      intro progress history h
      cases h
      simp
  | cons round rounds ih =>
      intro progress history h
      obtain ⟨first, rest, rfl, hfirst, hrest⟩ := h
      have hmore := ih hrest
      rw [after_scratchpad] at hmore
      -- The call of this round belongs to the empty prefix, those of later rounds to prefixes that
      -- begin with its entry.
      rw [modelCalls_append, List.map_append, modelCalls_of_plays hfirst, List.append_assoc,
        afterAll_cons, hmore, List.map_cons, List.map_nil, promptOf_callParameters, List.map_cons,
        List.inits_cons, List.map_cons, List.map_map, List.append_nil, List.singleton_append]
      refine congrArg (List.cons _) (List.map_congr_left fun seen _ => ?_)
      simp

/-! ## The last call and the whole session -/

/-- No reply is both an answer and the request for a tool. -/
theorem not_answers_of_asksForTool {plan : Plan} {reply : Reply} (h : plan.AsksForTool reply) :
    ¬ plan.Answers reply := by
  rintro ⟨turn, hread, hfinal⟩
  obtain ⟨other, hother, hopen⟩ := h
  rw [hread] at hother
  cases hother
  rw [hfinal] at hopen
  cases hopen

/-- Consulting a model takes one call, whatever comes of it. -/
theorem modelCalls_of_consultation {plan : Plan} {progress next : Progress} {decision : Decision}
    {history : History} (h : plan.Consultation progress history next decision) :
    ∃ answer, modelCalls history = [(plan.callParameters progress, answer)] := by
  cases h with
  | unreachable failure => exact ⟨_, rfl⟩
  | unreadable => exact ⟨_, rfl⟩
  | answered => exact ⟨_, rfl⟩
  | toolCall _ _ htold =>
      exact ⟨_, by rw [modelCalls_call, modelCalls_eq_nil (isMemory_of_tells htold)]⟩

/-- Consulting a model runs no tool. -/
theorem toolRuns_of_consultation {plan : Plan} {progress next : Progress} {decision : Decision}
    {history : History} (h : plan.Consultation progress history next decision) :
    toolRuns history = [] := by
  cases h with
  | unreachable failure => rfl
  | unreadable => rfl
  | answered => rfl
  | toolCall _ _ htold => rw [toolRuns_call, toolRuns_eq_nil (isMemory_of_tells htold)]

/-- The last call of a session and its ending go through at most two phases. -/
theorem path_length_of_ending {plan : Plan} {progress next final : Progress} {left : Nat}
    {decision : Decision} {outcome : Except Failure String} {history : History}
    (h : plan.Consultation progress history next decision)
    (hending : plan.Ending left next decision final outcome) :
    final.path.length ≤ progress.path.length + 2 := by
  cases hending <;> cases h <;> simp [called, Progress.enter]

/-- How a session that comes to an answer ends: its last reply is that answer, or the last one that
the budget allows and no answer. -/
theorem ending_ok {plan : Plan} {progress next final : Progress} {left : Nat}
    {decision : Decision} {answer : String} {history : History}
    (h : plan.Consultation progress history next decision)
    (hending : plan.Ending left next decision final (.ok answer)) :
    ∃ reply, modelCalls history = [(plan.callParameters progress, .ok reply)] ∧
      final.calls = progress.calls + 1 ∧ final.scratchpad = progress.scratchpad ∧
        (plan.Answers reply ∧ final.path = progress.path ++ [.parsed, .final] ∨
          plan.AsksForTool reply ∧ left = 0 ∧
            final.path = progress.path ++ [.parsed, .budgetSpent]) := by
  -- How the run ended says what the last call brought: an answer, or a tool call with no call left.
  cases hending with
  | answered =>
      cases h with
      | @answered reply turn _ hread hanswer =>
          refine ⟨reply, rfl, rfl, rfl, .inl ⟨⟨turn, hread, ?_⟩, ?_⟩⟩
          · simp [Reply.Turn.isFinal, hanswer]
          · simp [called, Progress.enter]
  | @spent _ turn =>
      cases h with
      | @toolCall reply _ told hread hopen htold =>
          refine ⟨reply, ?_, ?_, ?_, .inr ⟨⟨turn, hread, ?_⟩, rfl, ?_⟩⟩
          · rw [modelCalls_call, modelCalls_eq_nil (isMemory_of_tells htold)]
          · simp [Progress.enter]
          · simp [Progress.enter]
          · simp [Reply.Turn.isFinal, hopen]
          · simp [Progress.enter]

/-- What happens after the last call of a session concerns neither the model nor the running of
tools. -/
theorem counts_of_run {plan : Plan} {progress : Progress} {result : Except Failure Result}
    {history : History} (h : plan.run.Yields history (progress, result)) :
    ∃ conversed outcome,
      (plan.converse (plan.config.maxIterations - 1) {}).Yields conversed (progress, outcome) ∧
        modelCalls history = modelCalls conversed ∧ toolRuns history = toolRuns conversed ∧
          ∀ r, result = .ok r →
            ∃ answer, outcome = .ok answer ∧ r = plan.result progress answer := by
  obtain ⟨conversed, saved, closed, outcome, rfl, hconverse, hconclude, hclosed⟩ := run_yields h
  obtain ⟨hsaved, hresult⟩ := conclude_yields hconclude
  obtain ⟨hcalls, hruns⟩ := counts_of_closeTools hclosed
  refine ⟨conversed, outcome, hconverse, ?_, ?_, hresult⟩
  · rw [modelCalls_append, modelCalls_append, modelCalls_eq_nil hsaved, hcalls]
    simp
  · rw [toolRuns_append, toolRuns_append, toolRuns_eq_nil hsaved, hruns]
    simp

/-- The limits of a session, returning or not. -/
theorem run_limits {plan : Plan} {progress : Progress} {result : Except Failure Result}
    {history : History} (h : plan.run.Yields history (progress, result)) :
    (modelCalls history).length ≤ plan.config.maxIterations ∧
      (toolRuns history).length ≤ plan.config.maxIterations - 1 ∧
        progress.path.length ≤ 4 * plan.config.maxIterations - 2 := by
  obtain ⟨conversed, outcome, hconverse, hcalls, hruns, -⟩ := counts_of_run h
  obtain ⟨rounds, played, last, decided, decision, rfl, hlength, hplayed, hlast, hending⟩ :=
    converse_yields hconverse
  have hpos := plan.config.maxIterations_pos
  refine ⟨?_, ?_, ?_⟩
  · obtain ⟨answer, hone⟩ := modelCalls_of_consultation hlast
    -- One call a round and the last one, and there are at most as many rounds as calls left.
    have hreplies := congrArg List.length (replies_of_playsAll hplayed)
    rw [hcalls, modelCalls_append, hone, List.length_append, List.length_singleton]
    rw [List.length_map, List.length_map] at hreplies
    omega
  · have hplayedRuns := toolRuns_of_playsAll hplayed
    rw [hruns, toolRuns_append, toolRuns_of_consultation hlast, List.append_nil]
    omega
  -- Each full round goes through four phases; the ending is the last two at most.
  · have hpath := path_length_of_ending hlast hending
    rw [afterAll_path] at hpath
    have hphases : (List.replicate rounds.length roundPhases).flatten.length =
        4 * rounds.length := by
      simp [roundPhases, Nat.mul_comm]
    rw [List.length_append, hphases] at hpath
    have hempty : ({} : Progress).path.length = 0 := rfl
    omega

/-- A session that returned: some rounds, each of whose replies asks for a tool, and one more reply,
which is an answer or spends the budget. -/
structure Returned (plan : Plan) (history : History) (progress : Progress) (result : Result)
    (rounds : List Round) (reply : Reply) : Prop where
  replies : (modelCalls history).map Prod.snd =
    (rounds.map fun round => .ok round.reply) ++ [.ok reply]
  asks : ∀ round ∈ rounds, plan.AsksForTool round.reply
  iterations : result.iterations = rounds.length + 1
  prompts : (modelCalls history).map promptOf = progress.scratchpad.inits.map plan.promptWith
  scratchpad : progress.scratchpad.length = rounds.length
  path : progress.path =
    (List.replicate rounds.length roundPhases).flatten ++ [.parsed, result.terminalPhase]
  ending : plan.Answers reply ∧ result.terminalPhase = .final ∨
    plan.AsksForTool reply ∧ rounds.length + 1 = plan.config.maxIterations ∧
      result.terminalPhase = .budgetSpent

/-- A session that returns has played some rounds, consulted the model once more, and concluded. -/
theorem run_returned {plan : Plan} {progress : Progress} {result : Result} {history : History}
    (h : plan.run.Yields history (progress, .ok result)) :
    ∃ rounds reply, plan.Returned history progress result rounds reply := by
  obtain ⟨conversed, outcome, hconverse, hcalls, -, hresult⟩ := counts_of_run h
  obtain ⟨answer, rfl, rfl⟩ := hresult result rfl
  obtain ⟨rounds, played, last, decided, decision, rfl, hlength, hplayed, hlast, hending⟩ :=
    converse_yields hconverse
  obtain ⟨reply, hone, hcount, hpad, hkind⟩ := ending_ok hlast hending
  have hpos := plan.config.maxIterations_pos
  have hscratchpad : progress.scratchpad = rounds.map plan.entryOf := by
    rw [hpad, afterAll_scratchpad]
    rfl
  -- The phases are those of the full rounds, and then the ones the ending adds.
  have hphases : (plan.afterAll {} rounds).path =
      (List.replicate rounds.length roundPhases).flatten := by
    rw [afterAll_path]
    rfl
  have hterminal : (plan.result progress answer).terminalPhase = progress.phase := rfl
  refine ⟨rounds, reply, ?_, asksForTool_of_playsAll hplayed, ?_, ?_, ?_, ?_, ?_⟩
  · rw [hcalls, modelCalls_append, List.map_append, replies_of_playsAll hplayed, hone]
    rfl
  · rw [afterAll_calls] at hcount
    simp [Plan.result, hcount]
  · rw [hcalls, modelCalls_append, hone, List.map_append, List.map_cons, List.map_nil,
      promptOf_callParameters, prompts_of_playsAll hplayed, hscratchpad]
    rfl
  · rw [hscratchpad, List.length_map]
  · rw [hphases] at hkind
    rcases hkind with ⟨-, hpath⟩ | ⟨-, -, hpath⟩ <;> simp [hterminal, Progress.phase, hpath]
  · rcases hkind with ⟨hanswers, hpath⟩ | ⟨hasks, hleft, hpath⟩
    · exact .inl ⟨hanswers, by simp [hterminal, Progress.phase, hpath]⟩
    · exact .inr ⟨hasks, by omega, by simp [hterminal, Progress.phase, hpath]⟩

namespace Returned

variable {plan : Plan} {history : History} {progress : Progress} {result : Result}
  {rounds : List Round} {reply : Reply}

/-- One call for every round, and the last one. -/
theorem length_modelCalls (h : plan.Returned history progress result rounds reply) :
    (modelCalls history).length = rounds.length + 1 := by
  simpa using congrArg List.length h.replies

/-- The last reply is among the calls. -/
theorem exists_lastCall (h : plan.Returned history progress result rounds reply) :
    ∃ call ∈ modelCalls history, call.2 = .ok reply := by
  have hlast : Except.ok reply ∈ (modelCalls history).map Prod.snd := by
    rw [h.replies]
    simp
  obtain ⟨call, hmem, hcall⟩ := List.mem_map.mp hlast
  exact ⟨call, hmem, hcall⟩

/-- Every call got a reply, either that of a round or the last one. -/
theorem reply_of_mem (h : plan.Returned history progress result rounds reply)
    {call : Fields Json × Except Failure Reply} (hmem : call ∈ modelCalls history) :
    (∃ round ∈ rounds, call.2 = .ok round.reply) ∨ call.2 = .ok reply := by
  have hsnd : call.2 ∈ (modelCalls history).map Prod.snd := List.mem_map_of_mem hmem
  rw [h.replies, List.mem_append, List.mem_map] at hsnd
  rcases hsnd with ⟨round, hround, heq⟩ | hlast
  · exact .inl ⟨round, hround, heq.symm⟩
  · exact .inr (List.mem_singleton.mp hlast)

/-- The budget is spent exactly if it allows no further call and every reply has asked for a
tool. -/
theorem budgetSpent_iff (h : plan.Returned history progress result rounds reply) :
    result.terminalPhase = .budgetSpent ↔
      (modelCalls history).length = plan.config.maxIterations ∧
        ∀ call ∈ modelCalls history, ∃ reply, call.2 = .ok reply ∧ plan.AsksForTool reply := by
  rcases h.ending with ⟨hanswers, hterminal⟩ | ⟨hasks, hbudget, hterminal⟩
  · rw [hterminal]
    refine ⟨fun hphase => (by cases hphase), ?_⟩
    -- The answer is among the replies, so not all of them ask for a tool.
    rintro ⟨-, hevery⟩
    obtain ⟨call, hmem, hcall⟩ := h.exists_lastCall
    obtain ⟨other, hother, hasks⟩ := hevery call hmem
    rw [hcall] at hother
    cases hother
    exact absurd hanswers (not_answers_of_asksForTool hasks)
  · refine ⟨fun _ => ⟨by rw [h.length_modelCalls, hbudget], ?_⟩, fun _ => hterminal⟩
    intro call hmem
    rcases h.reply_of_mem hmem with ⟨round, hround, hcall⟩ | hcall
    · exact ⟨round.reply, hcall, h.asks round hround⟩
    · exact ⟨reply, hcall, hasks⟩

/-- The session is final exactly if the last reply answers, and the others have asked for a tool. -/
theorem final_iff (h : plan.Returned history progress result rounds reply) :
    result.terminalPhase = .final ↔
      ∃ (earlier : List Reply) (last : Reply),
        (modelCalls history).map Prod.snd = earlier.map .ok ++ [.ok last] ∧
          (∀ reply ∈ earlier, plan.AsksForTool reply) ∧ plan.Answers last := by
  rcases h.ending with ⟨hanswers, hterminal⟩ | ⟨hasks, -, hterminal⟩
  · refine ⟨fun _ => ⟨rounds.map Round.reply, reply, ?_, ?_, hanswers⟩, fun _ => hterminal⟩
    · rw [h.replies, List.map_map]
      rfl
    · intro other hother
      obtain ⟨round, hround, rfl⟩ := List.mem_map.mp hother
      exact h.asks round hround
  · rw [hterminal]
    refine ⟨fun hphase => (by cases hphase), ?_⟩
    rintro ⟨earlier, last, heq, -, hanswers⟩
    rw [h.replies] at heq
    -- Both lists end with the last reply, which asks for a tool here and is an answer there.
    have hsame := (List.append_inj' heq rfl).2
    cases hsame
    exact absurd hanswers (not_answers_of_asksForTool hasks)

end Returned

/-- **The budget of a session.**  Whatever the world answers, a session ends; it calls its model at
most as often as its budget `N` allows, runs at most `N - 1` tools, and enters at most `4 * N - 2`
phases.

If it returns, the iterations that it reports are the calls that it made.  It has spent its budget
exactly if it made all `N` calls and every reply asked for a tool, and it is final exactly if its
last reply is the first one that was read as an answer.  Between any two consecutive calls exactly
one observation was folded: the phases are full rounds and the two that end the session, and the
prompts of the calls show the entries of the scratchpad one by one. -/
theorem run_keeps_budget (plan : Plan) (world : Dialogue.World Request Request.Answer) :
    let (history, progress, outcome) := plan.run.play world
    (modelCalls history).length ≤ plan.config.maxIterations ∧
      (toolRuns history).length ≤ plan.config.maxIterations - 1 ∧
      progress.path.length ≤ 4 * plan.config.maxIterations - 2 ∧
      ∀ result, outcome = .ok result →
        result.iterations = (modelCalls history).length ∧
        (result.terminalPhase = .budgetSpent ↔
          (modelCalls history).length = plan.config.maxIterations ∧
            ∀ call ∈ modelCalls history, ∃ reply, call.2 = .ok reply ∧ plan.AsksForTool reply) ∧
        (result.terminalPhase = .final ↔
          ∃ (earlier : List Reply) (last : Reply),
            (modelCalls history).map Prod.snd = earlier.map .ok ++ [.ok last] ∧
              (∀ reply ∈ earlier, plan.AsksForTool reply) ∧ plan.Answers last) ∧
        progress.path =
          (List.replicate ((modelCalls history).length - 1) roundPhases).flatten ++
            [.parsed, result.terminalPhase] ∧
        progress.scratchpad.length = (modelCalls history).length - 1 ∧
        (modelCalls history).map promptOf = progress.scratchpad.inits.map plan.promptWith := by
  have hyields := Dialogue.play_yields world plan.run
  -- The world has no part in what follows: it holds of every history that the session can have.
  generalize plan.run.play world = played at hyields
  obtain ⟨history, progress, outcome⟩ := played
  obtain ⟨hcalls, hruns, hpath⟩ := run_limits hyields
  refine ⟨hcalls, hruns, hpath, ?_⟩
  rintro result rfl
  obtain ⟨rounds, reply, hreturned⟩ := run_returned hyields
  have hlength : (modelCalls history).length - 1 = rounds.length := by
    rw [hreturned.length_modelCalls, Nat.add_sub_cancel]
  refine ⟨?_, hreturned.budgetSpent_iff, hreturned.final_iff, ?_, ?_, hreturned.prompts⟩
  · rw [hreturned.iterations, hreturned.length_modelCalls]
    rfl
  · rw [hlength]
    exact hreturned.path
  · rw [hlength]
    exact hreturned.scratchpad

end Plan

end ReAct.Session
