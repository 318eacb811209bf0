import ReAct.Config
import ReAct.Proofs.Dialogue.Parallel
import ReAct.Proofs.Session.Questions
import ReAct.Proofs.Session.Store

/-!
# Recording does not interfere

A session keeps a record of what it does: it can tell memory of every step, and its result can
deliver the response of every step.  None of this has a part in what the session does.  Two sessions
that differ in nothing but their ways to record make the same calls of the model, run the same tools
and come to the same end, whatever memory makes of the steps that it is told
(`Plan.run_ignores_recording`).  Only the saving of the answer can fail a session, so it must not
fail in either of them.

The two sessions are compared side by side, part by part of the loop; what memory is asked is
hidden.

## Main Definitions

* `Plan.recorded`: a plan with another way to record
* `AnswerSaved`: a history in which no saving of an answer fails
* `SameEnd`: two outcomes that differ at most in the items that are delivered
-/

namespace ReAct.Session

open Dialogue (Parallel Silent SameScript)

/-! ## What is hidden, and what is admitted -/

/-- Whether memory is asked. -/
def Request.isMemory : Request → Bool
  | .memory _ => true
  | _ => false

/-- Whether the answer of a session is to be saved. -/
def Request.savesAnswer : Request → Bool
  | .memory (.append _ _ entry) => entry.finalAnswer
  | .memory (.update _ _) => true
  | _ => false

/-- An event that is no failure to save an answer. -/
def Unfailing (event : Event) : Prop :=
  event.question.savesAnswer = true → isServed event = true

/-- No saving of an answer fails in a history. -/
def AnswerSaved (history : History) : Prop :=
  ∀ event ∈ history, Unfailing event

/-- Two parts of sessions that differ only in what they ask memory, and not in that either if the
saving of an answer should fail. -/
abbrev Alike {α β : Type} (Related : α → β → Prop) (first : Action α) (second : Action β) : Prop :=
  Parallel Request.isMemory Unfailing Related first second

/-- Two outcomes that tell the same: the same failure, or results that differ at most in the items
that they deliver. -/
def SameEnd : Except Failure Result → Except Failure Result → Prop
  | .ok result, .ok other => result.finalAnswer = other.finalAnswer ∧
      result.additionalInfo = other.additionalInfo ∧
        result.terminalPhase = other.terminalPhase ∧ result.iterations = other.iterations
  | .error failure, .error other => failure = other
  | _, _ => False

theorem kind_of_isMemory (request : Request) (h : request.isMemory = true) :
    request.kind = .memory := by
  cases request with
  | memory request => rfl
  | _ => cases h

/-- What asks nothing of memory does not depend on it. -/
theorem alike_of_asks {α : Type} {x : Action α} {kinds : List Request.Kind}
    (h : AsksOnly kinds x) (hkinds : .memory ∉ kinds) : Alike (· = ·) x x :=
  (h.overt kind_of_isMemory hkinds).parallel

namespace Plan

/-- A plan with another way to record: whether its result delivers every step, whether memory is not
told of the steps, and whether there is a memory. -/
def recorded (plan : Plan) (verbose traceDisabled remembers : Bool) : Plan :=
  { plan with
    config := { plan.config with verbose := verbose, traceDisabled := traceDisabled }
    remembers := remembers }

variable (plan : Plan) (verbose traceDisabled remembers : Bool)

/-! ## Silent parts -/

/-- Recording a step is silent: memory may fail to take it. -/
theorem record_silent (progress : Progress) (origin : String) (question response : Option String) :
    (plan.record progress origin question response).Silent Request.isMemory Unfailing
      (progress.addStep origin question response) := by
  unfold record
  cases plan.tracePlace? with
  | none => rfl
  | some place => exact Dialogue.silent_question rfl fun _ _ => rfl

/-- Recording an answer shows nothing. -/
theorem recordAnswer_silent (progress : Progress) (answer : String) :
    (plan.recordAnswer progress answer).Silent Request.isMemory Unfailing (.ok ()) := by
  unfold recordAnswer
  cases plan.tracePlace? with
  | none => rfl
  | some place =>
      refine Dialogue.silent_question rfl fun saved hsaved => ?_
      cases saved with
      | error failure => cases hsaved rfl
      | ok id => rfl

/-- Saving the answer is silent as long as it does not fail. -/
theorem save_silent (progress : Progress) (answer : String) :
    (plan.save progress answer).Silent Request.isMemory Unfailing (.ok ()) := by
  unfold save
  cases plan.place? with
  | none => rfl
  | some place =>
      refine (plan.recordAnswer_silent progress answer).bind ?_
      refine Dialogue.silent_question rfl fun updated hupdated => ?_
      cases updated with
      | error failure => cases hupdated rfl
      | ok _ => rfl

/-! ## One iteration -/

/-- Reading a reply is alike, whatever is recorded of it. -/
theorem read_alike (progress : Progress) (reply : Reply) :
    Alike (· = ·) (plan.read progress reply)
      ((plan.recorded verbose traceDisabled remembers).read progress reply) := by
  -- What is recorded changes nothing that the reading of a reply looks at.
  have hturn : Reply.interpret (plan.recorded verbose traceDisabled remembers).limits reply
      (plan.recorded verbose traceDisabled remembers).config.paths
      ((plan.recorded verbose traceDisabled remembers).tools.map Tool.Entry.name) =
        Reply.interpret plan.limits reply plan.config.paths
          (plan.tools.map Tool.Entry.name) := rfl
  unfold read
  rw [hturn]
  cases Reply.interpret plan.limits reply plan.config.paths
      (plan.tools.map Tool.Entry.name) with
  | error failure => exact .done rfl
  | ok turn =>
      cases hanswer : turn.finalAnswer with
      | some answer =>
          simp only [hanswer]
          exact .done rfl
      | none =>
          simp only [hanswer]
          refine Parallel.bind (.of_silent (record_silent ..) (record_silent ..) rfl) ?_
          rintro next _ rfl
          exact .done rfl

/-- So is consulting the model: it is told the same. -/
theorem consult_alike (progress : Progress) :
    Alike (· = ·) (plan.consult progress)
      ((plan.recorded verbose traceDisabled remembers).consult progress) := by
  refine Dialogue.parallel_question rfl fun answer => ?_
  cases answer with
  | error failure => exact .done rfl
  | ok reply => exact plan.read_alike verbose traceDisabled remembers _ reply

/-- What a tool is asked to do does not depend on anything but the turn. -/
theorem observe_alike (turn : Reply.Turn) :
    Alike (· = ·) (plan.observe turn)
      ((plan.recorded verbose traceDisabled remembers).observe turn) := by
  have hsame : (plan.recorded verbose traceDisabled remembers).observe turn = plan.observe turn :=
    rfl
  rw [hsame]
  exact alike_of_asks (plan.asks_observe turn) (by decide)

theorem useTool_alike (progress : Progress) (turn : Reply.Turn) :
    Alike (· = ·) (plan.useTool progress turn)
      ((plan.recorded verbose traceDisabled remembers).useTool progress turn) := by
  refine Parallel.bind (plan.observe_alike verbose traceDisabled remembers turn) ?_
  rintro observation _ rfl
  refine Parallel.bind (.of_silent (record_silent ..) (record_silent ..) rfl) ?_
  rintro next _ rfl
  exact .done rfl

/-! ## The whole session -/

theorem settle_alike
    {goOn other : Progress → Reply.Turn → Action (Progress × Except Failure String)}
    (h : ∀ progress turn, Alike (· = ·) (goOn progress turn) (other progress turn))
    (progress : Progress) (decision : Decision) :
    Alike (· = ·) (settle goOn progress decision) (settle other progress decision) := by
  cases decision with
  | failed failure => exact .done rfl
  | answered text => exact .done rfl
  | toolCall turn => exact h progress turn

/-- The induction is on the calls that are left, as the recursion is. -/
theorem converse_alike (remaining : Nat) (progress : Progress) :
    Alike (· = ·) (plan.converse remaining progress)
      ((plan.recorded verbose traceDisabled remembers).converse remaining progress) := by
  induction remaining generalizing progress with
  | zero =>
      refine Parallel.bind (plan.consult_alike verbose traceDisabled remembers progress) ?_
      rintro ⟨next, decision⟩ _ rfl
      exact settle_alike (fun _ _ => .done rfl) next decision
  | succ remaining ih =>
      refine Parallel.bind (plan.consult_alike verbose traceDisabled remembers progress) ?_
      rintro ⟨next, decision⟩ _ rfl
      refine settle_alike (fun progress turn => ?_) next decision
      refine Parallel.bind (plan.useTool_alike verbose traceDisabled remembers progress turn) ?_
      rintro used _ rfl
      exact ih used

theorem conclude_alike (progress : Progress) (outcome : Except Failure String) :
    Alike SameEnd (plan.conclude progress outcome)
      ((plan.recorded verbose traceDisabled remembers).conclude progress outcome) := by
  cases outcome with
  | error failure => exact .done rfl
  | ok answer =>
      have hsaved : Alike (fun first second => first = second ∧ first = .ok ())
          (plan.save progress answer)
          ((plan.recorded verbose traceDisabled remembers).save progress answer) :=
        .of_silent (save_silent ..) (save_silent ..) ⟨rfl, rfl⟩
      refine hsaved.bind ?_
      rintro _ _ ⟨rfl, rfl⟩
      exact .done ⟨rfl, rfl, rfl, rfl⟩

/-- Two sessions that differ in their ways to record only, side by side. -/
theorem run_alike :
    Alike (fun first second => first.1 = second.1 ∧ SameEnd first.2 second.2) plan.run
      (plan.recorded verbose traceDisabled remembers).run := by
  refine Parallel.bind (plan.converse_alike verbose traceDisabled remembers _ {}) ?_
  rintro ⟨progress, outcome⟩ _ rfl
  refine Parallel.bind (plan.conclude_alike verbose traceDisabled remembers progress outcome) ?_
  intro result other hend
  refine Parallel.bind (alike_of_asks (asks_closeTools plan.tools) (by decide)) ?_
  rintro _ _ -
  exact .done ⟨rfl, hend⟩

/-- **Recording does not interfere.**  Take two sessions of one plan that differ in their ways to
record: in whether results deliver every step, in whether memory is told of the steps, in whether
there is a memory at all, and in what memory answers.  The model and the tools follow one script; no
saving of an answer fails in either session.  Then everything but what memory is asked happens in
the one session as in the other: the calls of the model, the runs of the tools and the closing of
the tools, in one order, with the same parameters and the same answers.  Both sessions come to the
same progress, and to results that tell the same, or to the same failure. -/
theorem run_ignores_recording {world other : Dialogue.World Request Request.Answer}
    (hworlds : SameScript Request.isMemory world other) :
    let here := plan.run.play world
    let there := (plan.recorded verbose traceDisabled remembers).run.play other
    AnswerSaved here.1 → AnswerSaved there.1 →
      visible Request.isMemory here.1 = visible Request.isMemory there.1 ∧
        here.2.1 = there.2.1 ∧ SameEnd here.2.2 there.2.2 :=
  fun hhere hthere =>
    (plan.run_alike verbose traceDisabled remembers).play hworlds hhere hthere

/-- A session with a tool and with an interaction to answer. -/
def adding : Plan where
  session := { conversation := some "c", root := some "r", question := "1 + 1?" }
  model := "m"
  config := { Config.initial with pathChoices := { toolCalls := some "calls" } }
  prompt := ""
  tools := [⟨{ type := "sum" }, ⟨none, []⟩⟩]
  modelParameters := []
  remembers := true
  provider := none

/-- A world whose model runs the tool and then answers.  Its memory takes nothing but answers if it
is forgetful. -/
def addingWorld (forgetful : Bool) : Dialogue.World Request Request.Answer := fun past request =>
  match request with
  | .callModel _ _ =>
    if (modelCalls past).isEmpty then .ok (.object [("calls", .arr [.obj [("name", .str "sum")]])])
    else .ok (.text "2")
  | .memory (.append _ _ entry) =>
    if forgetful && !entry.finalAnswer then .error ⟨.system, "no space"⟩ else .ok "i"
  | .memory (.update _ _) => .ok ()
  | .memory (.createSession _) => .ok ""
  | .memory (.recent _ _) => .ok []
  | .memory (.traces _) => .ok []
  | .buildTool _ => .ok ⟨none, []⟩
  | .runTool _ _ => .ok (.int 2)
  | .closeTool _ => .ok ()
  | .discover _ _ => .ok []

/-- Hiding memory hides no model call. -/
theorem modelCalls_visible (history : History) :
    modelCalls (visible Request.isMemory history) = modelCalls history := by
  rw [modelCalls, visible, List.filterMap_filter]
  refine List.filterMap_congr fun event _ => ?_
  obtain ⟨request, answer⟩ := event
  cases request <;> rfl

/-- The two worlds differ in what memory answers only. -/
theorem addingWorld_sameScript (forgetful other : Bool) :
    SameScript Request.isMemory (addingWorld forgetful) (addingWorld other) := by
  intro past pastThere request hrequest hpast
  cases request with
  | callModel model parameters =>
      simp only [addingWorld, ← modelCalls_visible past, hpast, modelCalls_visible]
  | memory request => cases hrequest
  | _ => rfl

/-- A session whose memory loses every step, and one that delivers its steps and has no memory. -/
theorem run_ignores_recording_adding :
    (∃ event ∈ (adding.run.play (addingWorld true)).1, isServed event = false) ∧
      toolRuns (adding.run.play (addingWorld true)).1 = [("sum", [])] ∧
      visible Request.isMemory (adding.run.play (addingWorld true)).1 =
        visible Request.isMemory
          ((adding.recorded true true false).run.play (addingWorld false)).1 ∧
      SameEnd (adding.run.play (addingWorld true)).2.2
        ((adding.recorded true true false).run.play (addingWorld false)).2.2 := by
  have hhere : AnswerSaved (adding.run.play (addingWorld true)).1 := by
    unfold AnswerSaved Unfailing
    decide +kernel
  have hthere :
      AnswerSaved ((adding.recorded true true false).run.play (addingWorld false)).1 := by
    unfold AnswerSaved Unfailing
    decide +kernel
  obtain ⟨hvisible, -, hend⟩ := run_ignores_recording adding true true false
    (addingWorld_sameScript true false) hhere hthere
  exact ⟨by decide +kernel, by decide +kernel, hvisible, hend⟩

end Plan

end ReAct.Session
