import ReAct.Proofs.Dialogue
import ReAct.Proofs.Reply.Limits
import ReAct.Session.Loop

/-!
# What happens in a session

The history of a session is a list of events.  This module says, part by part of the loop, which
events a part can have and what they lead to: how a reply is read and recorded, how a tool is
observed, how an observation is handed back, how tools are closed.  Everything that is not a choice
of the world is a function of the progress so far.

## Main Definitions

* `Event`, `History`: one exchange of a session with the world, and all of them
* `Plan.afterTurn`, `Plan.afterTool`: the progress after each half of an iteration
* `Consultation`, `Observed`: what a call of the model, and of a tool, can lead to
-/

namespace ReAct.Session

open ReAct.Text

/-- One exchange of a session with the world. -/
abbrev Event : Type := Exchange Request Request.Answer

/-- Everything that a session asked, with the answers. -/
abbrev History : Type := List Event

/-! ## Kinds of events -/

/-- The call of the model that an event is: its parameters, and what came back. -/
def modelCall? : Event → Option (Fields Json × Except Failure Reply)
  | ⟨.callModel _ parameters, answer⟩ => some (parameters, answer)
  | _ => none

/-- The tool that an event runs, and with which parameters. -/
def toolRun? : Event → Option (String × Fields String)
  | ⟨.runTool name parameters, _⟩ => some (name, parameters)
  | _ => none

/-- Whether an event concerns conversation memory. -/
def isMemory : Event → Bool
  | ⟨.memory _, _⟩ => true
  | _ => false

/-- The calls of the model in a history. -/
def modelCalls (history : History) : List (Fields Json × Except Failure Reply) :=
  history.filterMap modelCall?

/-- The runs of tools in a history. -/
def toolRuns (history : History) : List (String × Fields String) :=
  history.filterMap toolRun?

@[simp] theorem modelCalls_nil : modelCalls [] = [] := rfl

@[simp] theorem modelCalls_append (first second : History) :
    modelCalls (first ++ second) = modelCalls first ++ modelCalls second :=
  List.filterMap_append

@[simp] theorem toolRuns_nil : toolRuns [] = [] := rfl

@[simp] theorem toolRuns_append (first second : History) :
    toolRuns (first ++ second) = toolRuns first ++ toolRuns second :=
  List.filterMap_append

/-- Asking memory calls no model. -/
theorem modelCalls_eq_nil {history : History} (h : ∀ event ∈ history, isMemory event) :
    modelCalls history = [] := by
  rw [modelCalls, List.filterMap_eq_nil_iff]
  rintro ⟨request, answer⟩ hmem
  have hkind := h _ hmem
  cases request <;> first | rfl | cases hkind

/-- Asking memory runs no tool. -/
theorem toolRuns_eq_nil {history : History} (h : ∀ event ∈ history, isMemory event) :
    toolRuns history = [] := by
  rw [toolRuns, List.filterMap_eq_nil_iff]
  rintro ⟨request, answer⟩ hmem
  have hkind := h _ hmem
  cases request <;> first | rfl | cases hkind

/-- A question makes a history of one event. -/
@[simp] theorem ask_yields {request : Request} {answer : request.Answer} {history : History} :
    (ask request).Yields history answer ↔ history = [⟨request, answer⟩] :=
  Dialogue.yields_question

/-- A history that starts with a question: its answer comes first, then what it leads to. -/
theorem yields_ask_bind {α : Type} {request : Request} {f : request.Answer → Action α}
    {history : History} {a : α} (h : (ask request >>= f).Yields history a) :
    ∃ answer rest, history = ⟨request, answer⟩ :: rest ∧ (f answer).Yields rest a := by
  obtain ⟨_, rest, answer, rfl, hask, hrest⟩ := Dialogue.yields_bind.mp h
  rw [ask_yields] at hask
  subst hask
  exact ⟨answer, rest, rfl, hrest⟩

/-! ## Recording a step -/

/-- The progress with one more step in its trace. -/
def Progress.addStep (progress : Progress) (origin : String) (question response : Option String) :
    Progress :=
  { progress with trace := progress.trace ++ [⟨progress.nextNumber, origin, question, response⟩] }

/-! What the small steps of a session leave alone. -/

@[simp] theorem Progress.addStep_path (progress : Progress) (origin : String)
    (question response : Option String) :
    (progress.addStep origin question response).path = progress.path := rfl

@[simp] theorem Progress.addStep_calls (progress : Progress) (origin : String)
    (question response : Option String) :
    (progress.addStep origin question response).calls = progress.calls := rfl

@[simp] theorem Progress.addStep_scratchpad (progress : Progress) (origin : String)
    (question response : Option String) :
    (progress.addStep origin question response).scratchpad = progress.scratchpad := rfl

/-- A message that is added goes to the messages and changes nothing else. -/
theorem Progress.addInteraction_eq (progress : Progress) (message : Option String) :
    ∃ messages, progress.addInteraction message = { progress with interactions := messages } := by
  unfold Progress.addInteraction
  split
  · exact ⟨_, rfl⟩
  · split <;> exact ⟨_, rfl⟩

@[simp] theorem Progress.addInteraction_path (progress : Progress) (message : Option String) :
    (progress.addInteraction message).path = progress.path := by
  obtain ⟨messages, h⟩ := progress.addInteraction_eq message
  rw [h]

@[simp] theorem Progress.addInteraction_calls (progress : Progress) (message : Option String) :
    (progress.addInteraction message).calls = progress.calls := by
  obtain ⟨messages, h⟩ := progress.addInteraction_eq message
  rw [h]

@[simp] theorem Progress.addInteraction_scratchpad (progress : Progress)
    (message : Option String) :
    (progress.addInteraction message).scratchpad = progress.scratchpad := by
  obtain ⟨messages, h⟩ := progress.addInteraction_eq message
  rw [h]

namespace Plan

/-- What memory is told when a step is recorded: nothing if steps are not recorded, else one new
interaction.  Whether memory takes it does not matter. -/
def Tells (plan : Plan) (entry : Memory.Entry) (history : History) : Prop :=
  match plan.tracePlace? with
  | none => history = []
  | some (conversation, root) => ∃ answer : Except Failure String,
      history = [⟨.memory (.append conversation (some root) entry), answer⟩]

/-- A step as memory is told of it. -/
def stepEntry (progress : Progress) (origin : String) (question response : Option String) :
    Memory.Entry where
  question := question
  response := response
  origin := origin
  traceNumber := some progress.nextNumber

/-- What is told of a step is told to memory. -/
theorem isMemory_of_tells {plan : Plan} {entry : Memory.Entry} {history : History}
    (h : plan.Tells entry history) : ∀ event ∈ history, isMemory event := by
  unfold Tells at h
  split at h
  · subst h
    simp
  · obtain ⟨answer, rfl⟩ := h
    simp [isMemory]

/-- A step is added to the trace, and memory may be told of it. -/
theorem record_yields {plan : Plan} {progress next : Progress} {origin : String}
    {question response : Option String} {history : History}
    (h : (plan.record progress origin question response).Yields history next) :
    next = progress.addStep origin question response ∧
      plan.Tells (stepEntry progress origin question response) history := by
  unfold record at h
  unfold Tells
  cases hplace : plan.tracePlace? with
  | none =>
      simp only [hplace] at h
      obtain ⟨rfl, rfl⟩ := h
      exact ⟨rfl, by simp⟩
  | some place =>
      obtain ⟨conversation, root⟩ := place
      simp only [hplace] at h
      obtain ⟨answer, _, rfl, rfl, rfl⟩ := yields_ask_bind h
      exact ⟨rfl, answer, rfl⟩

/-! ## Calling the model -/

/-- The turn that a reply is read as. -/
def turnOf (plan : Plan) (reply : Reply) : Except Failure Reply.Turn :=
  Reply.interpret plan.limits reply plan.config.paths (plan.tools.map Tool.Entry.name)

/-- The event of the next call of the model. -/
def call (plan : Plan) (progress : Progress) (answer : Except Failure Reply) : Event :=
  ⟨.callModel plan.model (plan.callParameters progress), answer⟩

/-- The progress when the model has been called once more. -/
def called (progress : Progress) : Progress :=
  { progress with calls := progress.calls + 1 }

/-- The progress after a reply that asks for a tool, before its step is recorded. -/
def beforeStep (plan : Plan) (progress : Progress) (reply : Reply) (turn : Reply.Turn) : Progress :=
  Progress.addInteraction
    { (called progress).enter .parsed with lastThought := turn.thought.getD "" }
    (plan.provider.bind fun provider => provider.modelTurn reply.toJson)

/-- The progress after a reply that asks for a tool. -/
def afterTurn (plan : Plan) (progress : Progress) (reply : Reply) (turn : Reply.Turn) : Progress :=
  (plan.beforeStep progress reply turn).addStep "LLM" (some plan.session.question) turn.source

/-- What a call of the model can lead to. -/
inductive Consultation (plan : Plan) (progress : Progress) : History → Progress → Decision → Prop
  | unreachable (failure : Failure) :
      Consultation plan progress [plan.call progress (.error failure)] (called progress)
        (.failed (plan.callFailure failure))
  | unreadable {reply : Reply} {failure : Failure} (hread : plan.turnOf reply = .error failure) :
      Consultation plan progress [plan.call progress (.ok reply)] ((called progress).enter .parsed)
        (.failed failure)
  | answered {reply : Reply} {turn : Reply.Turn} {answer : String}
      (hread : plan.turnOf reply = .ok turn) (hanswer : turn.finalAnswer = some answer) :
      Consultation plan progress [plan.call progress (.ok reply)]
        (((called progress).enter .parsed).enter .final) (.answered (trimmed answer))
  | toolCall {reply : Reply} {turn : Reply.Turn} {told : History}
      (hread : plan.turnOf reply = .ok turn) (hopen : turn.finalAnswer = none)
      (htold : plan.Tells (stepEntry (plan.beforeStep progress reply turn) "LLM"
        (some plan.session.question) turn.source) told) :
      Consultation plan progress (plan.call progress (.ok reply) :: told)
        (plan.afterTurn progress reply turn) (.toolCall turn)

/-- How a consultation can come out: the call fails, its reply cannot be read, or there is a
turn. -/
theorem consult_yields {plan : Plan} {progress next : Progress} {decision : Decision}
    {history : History} (h : (plan.consult progress).Yields history (next, decision)) :
    plan.Consultation progress history next decision := by
  unfold consult at h
  obtain ⟨answer, rest, rfl, hrest⟩ := yields_ask_bind h
  clear h
  -- The splits are those of the turn: the call, the reading of the reply, and its answer.
  cases answer with
  | error failure =>
      obtain ⟨rfl, hresult⟩ := hrest
      cases hresult
      exact .unreachable failure
  | ok reply =>
      replace h : (plan.read ((called progress).enter .parsed) reply).Yields rest
        (next, decision) := hrest
      unfold read at h
      cases hread : Reply.interpret plan.limits reply plan.config.paths
          (plan.tools.map Tool.Entry.name) with
      | error failure =>
          rw [hread] at h
          obtain ⟨rfl, hresult⟩ := h
          cases hresult
          exact .unreadable hread
      | ok turn =>
          rw [hread] at h
          cases hanswer : turn.finalAnswer with
          | some answer =>
              simp only [hanswer] at h
              obtain ⟨rfl, hresult⟩ := h
              cases hresult
              exact .answered hread hanswer
          | none =>
              simp only [hanswer, Dialogue.yields_bind] at h
              obtain ⟨told, _, recorded, rfl, hrecord, rfl, hresult⟩ := h
              cases hresult
              obtain ⟨rfl, htold⟩ := record_yields hrecord
              rw [List.append_nil]
              exact .toolCall hread hanswer htold

/-! ## Using a tool -/

/-- The tool that a turn asks for, if the session has it. -/
def requested? (plan : Plan) (turn : Reply.Turn) : Option Tool.Entry :=
  turn.action.bind fun name => if name = "" then none else plan.tool? name

/-- The parameters with which the tool of a turn is run. -/
def arguments (plan : Plan) (tool : Tool.Entry) (turn : Reply.Turn) : Fields String :=
  Tool.arguments tool.spec plan.session.question turn.actionInput

/-- What a request for a tool can lead to. -/
inductive Observed (plan : Plan) (turn : Reply.Turn) : History → Tool.Observation → Prop
  | unsupported (hnone : plan.requested? turn = none) :
      Observed plan turn [] (.ofUnsupported turn.action turn.toolCallId)
  | refused {tool : Tool.Entry} (hsome : plan.requested? turn = some tool)
      (hrefused : tool.face.accepts (plan.arguments tool turn) = false) :
      Observed plan turn [] (.ofRefused tool.name turn.actionInput turn.toolCallId)
  | ran {tool : Tool.Entry} (hsome : plan.requested? turn = some tool)
      (haccepts : tool.face.accepts (plan.arguments tool turn) = true)
      (answer : Except String Json) :
      Observed plan turn [⟨.runTool tool.name (plan.arguments tool turn), answer⟩]
        (.ofRun tool.name turn.toolCallId answer)

/-- How an invocation can come out: there is no such tool, it refuses, or it is run. -/
theorem observe_yields {plan : Plan} {turn : Reply.Turn} {observation : Tool.Observation}
    {history : History} (h : (plan.observe turn).Yields history observation) :
    plan.Observed turn history observation := by
  unfold observe at h
  cases hrequest : plan.requested? turn with
  | none =>
      simp only [requested?] at hrequest
      rw [hrequest] at h
      obtain ⟨rfl, rfl⟩ := h
      exact .unsupported hrequest
  | some tool =>
      have hsome := hrequest
      simp only [requested?] at hrequest
      rw [hrequest] at h
      simp only [invoke] at h
      split at h
      · rename_i haccepts
        obtain ⟨answer, _, rfl, rfl, rfl⟩ := yields_ask_bind h
        exact .ran hsome haccepts answer
      · rename_i hrefused
        obtain ⟨rfl, rfl⟩ := h
        exact .refused hsome (Bool.eq_false_iff.mpr hrefused)

/-- A tool that is asked for is one of the session. -/
theorem mem_tools_of_requested {plan : Plan} {turn : Reply.Turn} {tool : Tool.Entry}
    (h : plan.requested? turn = some tool) : tool ∈ plan.tools := by
  obtain ⟨name, -, hname⟩ := Option.bind_eq_some_iff.mp h
  split at hname
  · cases hname
  · exact List.mem_of_find?_eq_some hname

/-- The progress with an observation reported, if its tool asks for that. -/
def reported (plan : Plan) (progress : Progress) (observation : Tool.Observation) : Progress :=
  match plan.tool? observation.toolName with
  | none => progress
  | some tool =>
    if tool.spec.includeOutput then progress.report (tool.name ++ ".output") observation.text
    else progress

/-- An observation that is reported goes to the additional information and changes nothing else. -/
theorem reported_eq (plan : Plan) (progress : Progress) (observation : Tool.Observation) :
    ∃ info, plan.reported progress observation = { progress with additionalInfo := info } := by
  unfold reported
  split
  · exact ⟨_, rfl⟩
  · split <;> exact ⟨_, rfl⟩

/-- The progress with an observation on the scratchpad and among the messages, before its step is
recorded. -/
def noted (plan : Plan) (progress : Progress) (turn : Reply.Turn) (observation : Tool.Observation) :
    Progress :=
  let progress := plan.reported progress observation
  { progress with
    scratchpad := progress.scratchpad ++ [scratchpadEntry plan.config turn observation]
    : Progress }.addInteraction (wrap plan.config plan.provider observation)

/-- The progress after a tool has been used, when the model is to be called again. -/
def afterTool (plan : Plan) (progress : Progress) (turn : Reply.Turn)
    (observation : Tool.Observation) : Progress :=
  ((plan.noted ((progress.enter .toolRunning).enter .folded) turn observation).addStep "ReAct"
    turn.actionInput (some observation.text)).enter .dispatched

/-- Using a tool is an invocation, and what memory is told of it. -/
theorem useTool_yields {plan : Plan} {progress next : Progress} {turn : Reply.Turn}
    {history : History} (h : (plan.useTool progress turn).Yields history next) :
    ∃ observation observed told, history = observed ++ told ∧
      plan.Observed turn observed observation ∧
      plan.Tells (stepEntry
        (plan.noted ((progress.enter .toolRunning).enter .folded) turn observation)
        "ReAct" turn.actionInput (some observation.text)) told ∧
      next = plan.afterTool progress turn observation := by
  simp only [useTool, Dialogue.yields_bind] at h
  obtain ⟨observed, _, observation, rfl, hobserve, told, _, folded, rfl, hfold, rfl, rfl⟩ := h
  obtain ⟨rfl, htold⟩ := record_yields hfold
  rw [List.append_nil]
  exact ⟨observation, observed, told, rfl, observe_yields hobserve, htold, rfl⟩

end Plan

/-! ## Closing tools -/

/-- Closing tools neither calls the model nor runs a tool. -/
theorem counts_of_closeTools {tools : List Tool.Entry} {history : History}
    (h : (closeTools tools).Yields history ()) :
    modelCalls history = [] ∧ toolRuns history = [] := by
  induction tools generalizing history with
  | nil =>
      obtain ⟨rfl, -⟩ := h
      exact ⟨rfl, rfl⟩
  | cons tool rest ih =>
      obtain ⟨answer, closed, rfl, hrest⟩ := yields_ask_bind h
      obtain ⟨hcalls, hruns⟩ := ih hrest
      exact ⟨hcalls, hruns⟩

end ReAct.Session
