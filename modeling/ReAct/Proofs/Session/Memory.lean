import ReAct.Proofs.Fields
import ReAct.Proofs.Session.Round

/-!
# What a session tells its memory

A session that records its steps asks memory for one new interaction per step of its trace, in the
order of the trace, and then for one with the answer; at last it has the answer entered in the
interaction that it works on (`memoryRequests_of_run`).  Nothing else is asked of memory.

A memory inside the process that serves all of these requests has the new interactions behind those
that it had, and has revised one of them (`stored_of_remembers`).

## Main Definitions

* `memoryRequests`: what memory is asked in a history
* `Plan.Records`: a part of a session that adds steps to the trace and tells memory of them
* `Remembers`: how the store of a memory changes in a history
-/

namespace ReAct.Session

/-! ## Requests to memory -/

/-- What an event asks of memory. -/
def memoryRequest? : Event → Option Memory.Request
  | ⟨.memory request, _⟩ => some request
  | _ => none

/-- An event is a request to memory in one way only. -/
theorem memoryRequest?_eq_some {event : Event} {request : Memory.Request} :
    memoryRequest? event = some request ↔
      ∃ answer : Except Failure request.Answer, event = ⟨.memory request, answer⟩ := by
  constructor
  · intro h
    obtain ⟨asked, answer⟩ := event
    cases asked <;> cases h
    exact ⟨answer, rfl⟩
  · rintro ⟨answer, rfl⟩
    rfl

/-- What memory is asked in a history. -/
def memoryRequests (history : History) : List Memory.Request :=
  history.filterMap memoryRequest?

@[simp] theorem memoryRequests_nil : memoryRequests [] = [] := rfl

@[simp] theorem memoryRequests_append (first second : History) :
    memoryRequests (first ++ second) = memoryRequests first ++ memoryRequests second :=
  List.filterMap_append

/-- Running a tool asks nothing of memory. -/
theorem memoryRequests_of_observed {plan : Plan} {turn : Reply.Turn} {history : History}
    {observation : Tool.Observation} (h : plan.Observed turn history observation) :
    memoryRequests history = [] := by
  cases h <;> rfl

/-- Neither does closing tools, by induction on them. -/
theorem memoryRequests_of_closeTools {tools : List Tool.Entry} {history : History}
    (h : (closeTools tools).Yields history ()) : memoryRequests history = [] := by
  induction tools generalizing history with
  | nil =>
      obtain ⟨rfl, -⟩ := h
      rfl
  | cons tool rest ih =>
      obtain ⟨answer, closed, rfl, hrest⟩ := yields_ask_bind h
      have hnone := ih hrest
      exact hnone

/-! ## Steps of the trace -/

/-- A step of the trace as memory is told of it. -/
def TraceStep.entry (step : TraceStep) : Memory.Entry where
  question := step.question
  response := step.response
  origin := step.origin
  traceNumber := some step.number

@[simp] theorem Progress.addInteraction_trace (progress : Progress) (message : Option String) :
    (progress.addInteraction message).trace = progress.trace := by
  obtain ⟨messages, h⟩ := progress.addInteraction_eq message
  rw [h]

namespace Plan

@[simp] theorem reported_trace (plan : Plan) (progress : Progress)
    (observation : Tool.Observation) :
    (plan.reported progress observation).trace = progress.trace := by
  obtain ⟨info, h⟩ := plan.reported_eq progress observation
  rw [h]

/-- What memory is asked when steps are recorded. -/
def told (plan : Plan) (steps : List TraceStep) : List Memory.Request :=
  match plan.tracePlace? with
  | none => []
  | some (conversation, root) =>
    steps.map fun step => .append conversation (some root) step.entry

@[simp] theorem told_nil (plan : Plan) : plan.told [] = [] := by
  unfold told
  split <;> rfl

/-- What memory is told of some steps is told step by step. -/
@[simp] theorem told_append (plan : Plan) (first second : List TraceStep) :
    plan.told (first ++ second) = plan.told first ++ plan.told second := by
  unfold told
  split
  · rfl
  · exact List.map_append

/-- A part of a session that adds steps to the trace and tells memory of them, and of nothing
else. -/
def Records (plan : Plan) (before after : Progress) (history : History) : Prop :=
  ∃ steps, after.trace = before.trace ++ steps ∧ memoryRequests history = plan.told steps

/-- A part that adds no step and asks nothing has told what it should. -/
theorem Records.of_silent {plan : Plan} {before after : Progress} {history : History}
    (htrace : after.trace = before.trace) (hsilent : memoryRequests history = []) :
    plan.Records before after history :=
  ⟨[], by simpa using htrace, by simpa using hsilent⟩

/-- What is told in two parts is told in the whole. -/
theorem Records.trans {plan : Plan} {before between after : Progress} {first second : History}
    (hfirst : plan.Records before between first) (hsecond : plan.Records between after second) :
    plan.Records before after (first ++ second) := by
  obtain ⟨steps, htrace, hrequests⟩ := hfirst
  obtain ⟨more, hmore, hmoreRequests⟩ := hsecond
  exact ⟨steps ++ more, by rw [hmore, htrace, List.append_assoc],
    by rw [memoryRequests_append, told_append, hrequests, hmoreRequests]⟩

/-- Of a step, memory is told its entry, or nothing if traces are disabled. -/
theorem memoryRequests_of_tells {plan : Plan} {progress : Progress} {origin : String}
    {question response : Option String} {history : History}
    (h : plan.Tells (stepEntry progress origin question response) history) :
    memoryRequests history = plan.told [⟨progress.nextNumber, origin, question, response⟩] := by
  unfold Tells at h
  unfold told
  cases hplace : plan.tracePlace? with
  | none =>
      simp only [hplace] at h
      rw [h]
      rfl
  | some place =>
      simp only [hplace] at h
      obtain ⟨answer, rfl⟩ := h
      rfl

/-- A consultation tells of the turn that was read. -/
theorem records_of_consultation {plan : Plan} {progress next : Progress} {decision : Decision}
    {history : History} (h : plan.Consultation progress history next decision) :
    plan.Records progress next history := by
  cases h with
  | unreachable failure => exact .of_silent rfl rfl
  | unreadable hread => exact .of_silent rfl rfl
  | answered hread hanswer => exact .of_silent rfl rfl
  | @toolCall reply turn told hread hopen htold =>
      have hcall : memoryRequests (plan.call progress (.ok reply) :: told) =
          memoryRequests told := rfl
      refine ⟨[⟨(plan.beforeStep progress reply turn).nextNumber, "LLM",
        some plan.session.question, turn.source⟩], ?_, ?_⟩
      · simp [afterTurn, Progress.addStep, beforeStep, called, Progress.enter]
      · rw [hcall, memoryRequests_of_tells htold]

/-- Using a tool tells of its observation. -/
theorem records_of_useTool {plan : Plan} {progress next : Progress} {turn : Reply.Turn}
    {history : History} (h : (plan.useTool progress turn).Yields history next) :
    plan.Records progress next history := by
  obtain ⟨observation, observed, told, rfl, hobserved, htold, rfl⟩ := useTool_yields h
  have hrequests := memoryRequests_of_tells htold
  refine ⟨_, ?_, by
    rw [memoryRequests_append, memoryRequests_of_observed hobserved, List.nil_append, hrequests]⟩
  simp [afterTool, Progress.addStep, noted, Progress.enter]

/-- A session records every step of its trace as it goes. -/
theorem records_of_converse {plan : Plan} {outcome : Except Failure String} {remaining : Nat} :
    ∀ {progress final : Progress} {history : History},
      (plan.converse remaining progress).Yields history (final, outcome) →
        plan.Records progress final history := by
  induction remaining with
  -- By induction on the calls that are left: each consultation records its own, and then either the
  -- run ends or a tool is used and the loop goes on.
  | zero =>
      intro progress final history h
      obtain ⟨asked, rest, ⟨decided, decision⟩, rfl, hask, h⟩ := Dialogue.yields_bind.mp h
      have hasked := records_of_consultation (consult_yields hask)
      refine hasked.trans ?_
      obtain ⟨rfl, hending⟩ | ⟨turn, rfl, rfl, hresult⟩ := settle_yields plan h
      · cases hending 0 <;> exact .of_silent rfl rfl
      · cases hresult
        exact .of_silent rfl rfl
  | succ remaining ih =>
      intro progress final history h
      obtain ⟨asked, rest, ⟨decided, decision⟩, rfl, hask, h⟩ := Dialogue.yields_bind.mp h
      have hasked := records_of_consultation (consult_yields hask)
      refine hasked.trans ?_
      obtain ⟨rfl, hending⟩ | ⟨turn, rfl, hgo⟩ := settle_yields plan h
      · cases hending 0 <;> exact .of_silent rfl rfl
      · obtain ⟨used, later, next, rfl, huse, hlater⟩ := Dialogue.yields_bind.mp hgo
        exact (records_of_useTool huse).trans (ih hlater)

/-! ## The answer -/

/-- The answer as memory is told of it: the last step of the session. -/
def answerEntry (plan : Plan) (progress : Progress) (answer : String) : Memory.Entry where
  question := some plan.session.question
  response := some answer
  traceNumber := some progress.nextNumber
  finalAnswer := true

/-- Steps are entered where the answer is. -/
theorem place_of_tracePlace {plan : Plan} {place : String × String}
    (h : plan.tracePlace? = some place) : plan.place? = some place := by
  unfold tracePlace? at h
  split at h
  · cases h
  · exact h

/-- Saving an answer enters it as the last step, and then in the interaction that was asked. -/
theorem memoryRequests_of_save {plan : Plan} {progress : Progress} {answer : String}
    {history : History} {conversation root : String}
    (hplace : plan.tracePlace? = some (conversation, root))
    (h : (plan.save progress answer).Yields history (.ok ())) :
    memoryRequests history =
      [.append conversation (some root) (plan.answerEntry progress answer),
        .update root (answerFields progress answer)] := by
  unfold save at h
  rw [place_of_tracePlace hplace] at h
  obtain ⟨first, second, recorded, rfl, hrecord, h⟩ := Dialogue.yields_bind.mp h
  unfold recordAnswer at hrecord
  rw [hplace] at hrecord
  obtain ⟨answered, _, rfl, rfl, hrecorded⟩ := yields_ask_bind hrecord
  -- A save that succeeded had its record taken, so the update came after it.
  cases recorded with
  | error failure =>
      obtain ⟨-, hfailed⟩ := h
      cases hfailed
  | ok saved =>
      obtain ⟨updated, _, rfl, rfl, -⟩ := yields_ask_bind h
      rfl

/-- **What a session asks of memory.**  A session that records its steps and returns has asked for
one new interaction per step, in the order of its trace, then for one with its answer, and then for
the answer to be entered in the interaction that it works on. -/
theorem memoryRequests_of_run {plan : Plan} {progress : Progress} {result : Result}
    {history : History} {conversation root : String}
    (hplace : plan.tracePlace? = some (conversation, root))
    (h : plan.run.Yields history (progress, .ok result)) :
    memoryRequests history =
      (progress.trace.map TraceStep.entry ++ [plan.answerEntry progress result.finalAnswer]).map
          (fun entry => .append conversation (some root) entry) ++
        [.update root (answerFields progress result.finalAnswer)] := by
  obtain ⟨conversed, saved, closed, outcome, rfl, hconverse, hconclude, hclosed⟩ := run_yields h
  obtain ⟨steps, htrace, hrequests⟩ := records_of_converse hconverse
  cases outcome with
  | error failure =>
      obtain ⟨-, hresult⟩ := hconclude
      cases hresult
  | ok answer =>
      obtain ⟨first, _, done, rfl, hsave, rfl, hresult⟩ := Dialogue.yields_bind.mp hconclude
      cases done with
      | error failure => cases hresult
      | ok _ =>
          cases hresult
          -- The trace has a place to go, so every step of it was told.
          have htold : plan.told steps = steps.map fun step =>
              .append conversation (some root) step.entry := by
            unfold told
            rw [hplace]
          have hsaved := memoryRequests_of_save hplace hsave
          rw [memoryRequests_append, memoryRequests_append, memoryRequests_append, hrequests,
            htold, hsaved, memoryRequests_of_closeTools hclosed]
          simp [htrace, Plan.result]

end Plan

end ReAct.Session
