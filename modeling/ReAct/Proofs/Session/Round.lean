import ReAct.Proofs.Session.Event

/-!
# Rounds of a session

A round is one full iteration: the model asks for a tool, and its observation is handed back.  A
session is some number of rounds and then one more call of the model, which ends it: by an answer,
by a failure, or because no call is left (`converse_yields`).  The progress after the rounds is a
fold over them, so it depends on nothing but what the model replied and what the tools did.

## Main Definitions

* `Round`: what one iteration consists of
* `Plan.Plays`, `Plan.PlaysAll`: the histories of one round, and of several
* `Plan.after`, `Plan.afterAll`: the progress after one round, and after several
* `Plan.Ending`: how the last call ends a session
-/

namespace ReAct.Session

/-- One full iteration: the reply, the turn that it was read as, and what the tool did. -/
structure Round where
  reply : Reply
  turn : Reply.Turn
  observation : Tool.Observation

namespace Plan

/-- The progress after a round. -/
def after (plan : Plan) (progress : Progress) (round : Round) : Progress :=
  plan.afterTool (plan.afterTurn progress round.reply round.turn) round.turn round.observation

/-- The progress after several rounds. -/
def afterAll (plan : Plan) (progress : Progress) (rounds : List Round) : Progress :=
  rounds.foldl plan.after progress

@[simp] theorem afterAll_nil (plan : Plan) (progress : Progress) :
    plan.afterAll progress [] = progress := rfl

@[simp] theorem afterAll_cons (plan : Plan) (progress : Progress) (round : Round)
    (rounds : List Round) :
    plan.afterAll progress (round :: rounds) = plan.afterAll (plan.after progress round) rounds :=
  rfl

/-- The histories of a round: the call whose reply asks for a tool, the run of the tool if there is
one, and what memory is told of either. -/
structure Plays (plan : Plan) (progress : Progress) (round : Round) (history : History) : Prop where
  read : plan.turnOf round.reply = .ok round.turn
  unanswered : round.turn.finalAnswer = none
  parts : ∃ told observed toldAgain entry entryAgain,
    history = plan.call progress (.ok round.reply) :: (told ++ (observed ++ toldAgain)) ∧
      plan.Tells entry told ∧ plan.Observed round.turn observed round.observation ∧
        plan.Tells entryAgain toldAgain

/-- The histories of several rounds. -/
def PlaysAll (plan : Plan) : Progress → List Round → History → Prop
  | _, [], history => history = []
  | progress, round :: rounds, history => ∃ first rest, history = first ++ rest ∧
      plan.Plays progress round first ∧ PlaysAll plan (plan.after progress round) rounds rest

/-- Each of several rounds is played at some point. -/
theorem exists_plays_of_mem {plan : Plan} {progress : Progress} {rounds : List Round}
    {history : History} (h : plan.PlaysAll progress rounds history) :
    ∀ round ∈ rounds, ∃ before part, plan.Plays before round part := by
  induction rounds generalizing progress history with
  | nil => simp
  | cons round rounds ih =>
      obtain ⟨first, rest, -, hfirst, hrest⟩ := h
      rw [List.forall_mem_cons]
      exact ⟨⟨progress, first, hfirst⟩, ih hrest⟩

/-- How the last call ends a session for which `left` more calls are allowed. -/
inductive Ending (plan : Plan) :
    (left : Nat) → Progress → Decision → Progress → Except Failure String → Prop
  | failed {left : Nat} {progress : Progress} {failure : Failure} :
      Ending plan left progress (.failed failure) progress (.error failure)
  | answered {left : Nat} {progress : Progress} {text : String} :
      Ending plan left progress (.answered text) progress (.ok text)
  | spent {progress : Progress} {turn : Reply.Turn} :
      Ending plan 0 progress (.toolCall turn) (progress.enter .budgetSpent)
        (.ok (budgetAnswer plan.config progress.lastThought))

/-- A call of the model that asks for a tool, and the use of the tool, are a round. -/
theorem plays_of_toolCall {plan : Plan} {progress next final : Progress} {turn : Reply.Turn}
    {asked used : History} (hasked : plan.Consultation progress asked next (.toolCall turn))
    (hused : (plan.useTool next turn).Yields used final) :
    ∃ round : Round, round.turn = turn ∧ final = plan.after progress round ∧
      plan.Plays progress round (asked ++ used) := by
  cases hasked with
  | @toolCall reply _ told hread hopen htold =>
      obtain ⟨observation, observed, toldAgain, rfl, hobserved, htoldAgain, rfl⟩ :=
        useTool_yields hused
      exact ⟨⟨reply, turn, observation⟩, rfl, rfl, hread, hopen, told, observed, toldAgain, _, _,
        rfl, htold, hobserved, htoldAgain⟩

/-- After a decision a session ends, or it goes on after a tool call. -/
theorem settle_yields (plan : Plan) {progress final : Progress} {decision : Decision}
    {goOn : Progress → Reply.Turn → Action (Progress × Except Failure String)}
    {outcome : Except Failure String} {history : History}
    (h : (settle goOn progress decision).Yields history (final, outcome)) :
    (history = [] ∧ ∀ left, plan.Ending left progress decision final outcome) ∨
      ∃ turn, decision = .toolCall turn ∧ (goOn progress turn).Yields history (final, outcome) := by
  cases decision with
  | failed failure =>
      obtain ⟨rfl, hresult⟩ := h
      cases hresult
      exact .inl ⟨rfl, fun _ => .failed⟩
  | answered text =>
      obtain ⟨rfl, hresult⟩ := h
      cases hresult
      exact .inl ⟨rfl, fun _ => .answered⟩
  | toolCall turn => exact .inr ⟨turn, rfl, h⟩

/-- **A session is rounds and a last call.**  The induction is on the calls that are left; each
round spends one of them. -/
theorem converse_yields {plan : Plan} {outcome : Except Failure String} {remaining : Nat} :
    ∀ {progress final : Progress} {history : History},
      (plan.converse remaining progress).Yields history (final, outcome) →
        ∃ rounds played last decided decision, history = played ++ last ∧
          rounds.length ≤ remaining ∧ plan.PlaysAll progress rounds played ∧
            plan.Consultation (plan.afterAll progress rounds) last decided decision ∧
              plan.Ending (remaining - rounds.length) decided decision final outcome := by
  induction remaining with
  | zero =>
      intro progress final history h
      obtain ⟨last, rest, ⟨decided, decision⟩, rfl, hask, h⟩ := Dialogue.yields_bind.mp h
      have hasked := consult_yields hask
      refine ⟨[], [], last, decided, decision, ?_⟩
      obtain ⟨rfl, hending⟩ | ⟨turn, rfl, rfl, hresult⟩ := settle_yields plan h
      · exact ⟨by simp, by simp, rfl, hasked, hending _⟩
      -- No call is left to hand an observation back to.
      · cases hresult
        exact ⟨by simp, by simp, rfl, hasked, .spent⟩
  | succ remaining ih =>
      intro progress final history h
      obtain ⟨asked, rest, ⟨decided, decision⟩, rfl, hask, h⟩ := Dialogue.yields_bind.mp h
      have hasked := consult_yields hask
      obtain ⟨rfl, hending⟩ | ⟨turn, rfl, hgo⟩ := settle_yields plan h
      · exact ⟨[], [], asked, decided, decision, by simp, by simp, rfl, hasked, hending _⟩
      -- The call and the use of the tool are the first round; the rest is a session of its own.
      · obtain ⟨used, later, next, rfl, huse, hlater⟩ := Dialogue.yields_bind.mp hgo
        obtain ⟨round, -, rfl, hplays⟩ := plays_of_toolCall hasked huse
        obtain ⟨rounds, played, last, decided', decision', rfl, hlength, hplayed, hlast, hending⟩ :=
          ih hlater
        refine ⟨round :: rounds, (asked ++ used) ++ played, last, decided', decision',
          by simp, by simpa using hlength, ⟨_, _, rfl, hplays, hplayed⟩, hlast, ?_⟩
        simpa using hending

/-! ## Saving and closing -/

theorem isMemory_of_save {plan : Plan} {progress : Progress} {answer : String} {history : History}
    {saved : Except Failure Unit} (h : (plan.save progress answer).Yields history saved) :
    ∀ event ∈ history, isMemory event := by
  unfold save at h
  split at h
  · obtain ⟨rfl, -⟩ := h
    simp
  · rename_i conversation root hplace
    obtain ⟨first, second, recorded, rfl, hrecord, h⟩ := Dialogue.yields_bind.mp h
    -- Both requests of a save go to the memory, the record of the answer and the update of the
    -- root.
    have hfirst : ∀ event ∈ first, isMemory event := by
      unfold recordAnswer at hrecord
      split at hrecord
      · obtain ⟨rfl, -⟩ := hrecord
        simp
      · obtain ⟨answer, _, rfl, rfl, -⟩ := yields_ask_bind hrecord
        simp [isMemory]
    have hsecond : ∀ event ∈ second, isMemory event := by
      cases recorded with
      | error failure =>
          obtain ⟨rfl, -⟩ := h
          simp
      | ok saved =>
          obtain ⟨answer, _, rfl, rfl, -⟩ := yields_ask_bind h
          simp [isMemory]
    intro event hmem
    rcases List.mem_append.mp hmem with hmem | hmem
    · exact hfirst event hmem
    · exact hsecond event hmem

/-- A session without an answer has no result; one with an answer that it can save has it as its
result.  Either way only memory is concerned. -/
theorem conclude_yields {plan : Plan} {progress : Progress} {outcome : Except Failure String}
    {result : Except Failure Result} {history : History}
    (h : (plan.conclude progress outcome).Yields history result) :
    (∀ event ∈ history, isMemory event) ∧
      ∀ r, result = .ok r → ∃ answer, outcome = .ok answer ∧ r = plan.result progress answer := by
  cases outcome with
  | error failure =>
      obtain ⟨rfl, rfl⟩ := h
      simp
  | ok answer =>
      obtain ⟨first, _, saved, rfl, hsave, rfl, rfl⟩ := Dialogue.yields_bind.mp h
      refine ⟨by simpa using isMemory_of_save hsave, ?_⟩
      intro r hr
      cases saved with
      | error failure => cases hr
      | ok _ =>
          cases hr
          exact ⟨answer, rfl, rfl⟩

/-- **The history of a session.**  It converses, saves what it has come to, and closes its tools. -/
theorem run_yields {plan : Plan} {progress : Progress} {result : Except Failure Result}
    {history : History} (h : plan.run.Yields history (progress, result)) :
    ∃ conversed saved closed outcome, history = conversed ++ (saved ++ closed) ∧
      (plan.converse (plan.config.maxIterations - 1) {}).Yields conversed (progress, outcome) ∧
        (plan.conclude progress outcome).Yields saved result ∧
          (closeTools plan.tools).Yields closed () := by
  unfold run at h
  obtain ⟨conversed, _, ⟨final, outcome⟩, rfl, hconverse, h⟩ := Dialogue.yields_bind.mp h
  obtain ⟨saved, _, concluded, rfl, hconclude, h⟩ := Dialogue.yields_bind.mp h
  obtain ⟨closed, _, _, rfl, hclose, rfl, hresult⟩ := Dialogue.yields_bind.mp h
  cases hresult
  exact ⟨conversed, saved, closed, outcome, by simp, hconverse, hconclude, hclose⟩

/-- The rounds of a session, its last call, and what is left of its history, in which the model is
not called. -/
theorem run_rounds {plan : Plan} {progress : Progress} {result : Except Failure Result}
    {history : History} (h : plan.run.Yields history (progress, result)) :
    ∃ rounds played last rest decided decision outcome, history = played ++ (last ++ rest) ∧
      plan.PlaysAll {} rounds played ∧
        plan.Consultation (plan.afterAll {} rounds) last decided decision ∧
          plan.Ending (plan.config.maxIterations - 1 - rounds.length) decided decision progress
              outcome ∧
            modelCalls rest = [] ∧ ∀ r, result = .ok r →
              ∃ answer, outcome = .ok answer ∧ r = plan.result progress answer := by
  obtain ⟨conversed, saved, closed, outcome, rfl, hconverse, hconclude, hclosed⟩ := run_yields h
  obtain ⟨hsaved, hresult⟩ := conclude_yields hconclude
  obtain ⟨rounds, played, last, decided, decision, rfl, -, hplayed, hlast, hending⟩ :=
    converse_yields hconverse
  refine ⟨rounds, played, last, saved ++ closed, decided, decision, outcome, by simp, hplayed,
    hlast, hending, ?_, hresult⟩
  rw [modelCalls_append, modelCalls_eq_nil hsaved, (counts_of_closeTools hclosed).1]
  rfl

end Plan

end ReAct.Session
