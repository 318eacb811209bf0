import ReAct.Prompt.Assembly
import ReAct.Provider
import ReAct.Reply.Limits
import ReAct.Session.Result
import ReAct.Session.Toolbox
import ReAct.Tool.Arguments

/-!
# The loop of a session

A session calls its model; the model answers, or it asks for a tool. The tool is run, its
observation is handed back, and the model is called again, until it answers or the calls that the
configuration allows are spent. A tool that is missing, refuses its input or breaks down does not
end the session: that is what the model observes. A model that cannot be called does.

The prompt is the same in every call except for its scratchpad, to which every observation adds one
entry. Besides, sessions whose model expects a list of messages keep one: the model's turns and the
messages that hand results back.

The loop is a recursion on the number of calls that are left, so it ends whatever the world answers.
It closes its tools at the end of every run, failed or not.

## Main definitions

* `Plan`: what is fixed before the first call
* `Progress`: what a session has come to so far
* `Plan.consult`, `Plan.useTool`: the two halves of one iteration
* `Plan.run`: the session
-/

namespace ReAct.Session

open ReAct.Text

/-- What is fixed before the first call. -/
structure Plan where
  session : Session
  /-- The name of the model. -/
  model : String
  config : Config
  /-- The assembled prompt, with the placeholders of the scratchpad left in it. -/
  prompt : String
  tools : List Tool.Entry
  /-- The parameters of every call. -/
  modelParameters : Fields Json
  /-- Whether there is conversation memory. -/
  remembers : Bool
  provider : Option Provider
  /-- The limits of the interpreter, within which replies are read. -/
  limits : Json.Limits := {}

/-- What a session has come to so far. -/
structure Progress where
  /-- The phases that were entered after the first one. -/
  path : List Phase := []
  /-- The number of model calls, the failed one included. -/
  calls : Nat := 0
  scratchpad : List String := []
  /-- The messages since the question, as JSON texts. -/
  interactions : List String := []
  trace : List TraceStep := []
  /-- The outputs that are reported with the answer. -/
  additionalInfo : Fields (List String) := []
  lastThought : String := ""

namespace Progress

/-- The phase that a session is in. -/
def phase (progress : Progress) : Phase :=
  progress.path.getLast?.getD .dispatched

/-- Enters a phase. -/
def enter (progress : Progress) (phase : Phase) : Progress :=
  { progress with path := progress.path ++ [phase] }

/-- Adds a message to the list. -/
def addInteraction (progress : Progress) (message : Option String) : Progress :=
  match message with
  | none => progress
  | some message =>
    if message = "" then progress
    else { progress with interactions := progress.interactions ++ [message] }

/-- Adds an output to those that are reported under a name. -/
def report (progress : Progress) (name output : String) : Progress :=
  let outputs := (Fields.get? progress.additionalInfo name).getD []
  { progress with additionalInfo := progress.additionalInfo.put name (outputs ++ [output]) }

/-- The number of the next step of the trace. -/
def nextNumber (progress : Progress) : Int :=
  progress.trace.length + 1

end Progress

namespace Plan

/-- The tool of a name. -/
def tool? (plan : Plan) (name : String) : Option Tool.Entry :=
  plan.tools.find? fun tool => tool.name == name

/-- The conversation and the interaction that the session works on, if memory keeps them. -/
def place? (plan : Plan) : Option (String × String) :=
  match plan.remembers, plan.session.conversation, plan.session.root with
  | true, some conversation, some root =>
    if conversation = "" ∨ root = "" then none else some (conversation, root)
  | _, _, _ => none

/-- The place where the steps of the session are recorded, if they are. -/
def tracePlace? (plan : Plan) : Option (String × String) :=
  if plan.config.traceDisabled then none else plan.place?

/-- The parameters of the next call. -/
def callParameters (plan : Plan) (progress : Progress) : Fields Json :=
  let prompt := Prompt.renderScratchpad plan.prompt (String.join progress.scratchpad)
  let params := Fields.put plan.modelParameters "prompt" (.str prompt)
  if progress.interactions.isEmpty then params
  else Fields.put params "_interactions" (.str (", " ++ ", ".intercalate progress.interactions))

/-- The failure of a session whose model could not be called. -/
def callFailure (plan : Plan) (failure : Failure) : Failure :=
  match failure.kind with
  | .model => failure
  | _ => ⟨.model, "Failed to invoke model '" ++ plan.model ++ "': " ++ failure.text⟩

/-- Adds a step to the trace. Memory is told of it where steps are recorded; that it fails to record
one does not matter. -/
def record (plan : Plan) (progress : Progress) (origin : String)
    (question response : Option String) : Action Progress := do
  let step : TraceStep := ⟨progress.nextNumber, origin, question, response⟩
  match plan.tracePlace? with
  | none => pure ()
  | some (conversation, root) =>
    let entry : Memory.Entry :=
      { question := question
        response := response
        origin := origin
        traceNumber := some step.number }
    let _ ← ask (.memory (.append conversation (some root) entry))
  return { progress with trace := progress.trace ++ [step] }

/-- What the model has decided. -/
inductive Decision where
  | failed (failure : Failure)
  | answered (text : String)
  | toolCall (turn : Reply.Turn)

/-- Reads a reply; a turn that is no answer is entered among the messages and in the trace. -/
def read (plan : Plan) (progress : Progress) (reply : Reply) :
    Action (Progress × Decision) := do
  match Reply.interpret plan.limits reply plan.config.paths (plan.tools.map Tool.Entry.name) with
  | .error failure => return (progress, .failed failure)
  | .ok turn =>
    match turn.finalAnswer with
    | some answer => return (progress.enter .final, .answered (trimmed answer))
    | none =>
      let progress := { progress with lastThought := turn.thought.getD "" }
      let message := plan.provider.bind fun provider => provider.modelTurn reply.toJson
      let progress := progress.addInteraction message
      let progress ← plan.record progress "LLM" (some plan.session.question) turn.source
      return (progress, .toolCall turn)

/-- Calls the model and reads its reply. -/
def consult (plan : Plan) (progress : Progress) : Action (Progress × Decision) := do
  let request := Request.callModel plan.model (plan.callParameters progress)
  let progress := { progress with calls := progress.calls + 1 }
  let answer : Except Failure Reply ← ask request
  match answer with
  | .error failure => return (progress, .failed (plan.callFailure failure))
  | .ok reply => plan.read (progress.enter .parsed) reply

/-- Runs the tool that a turn asks for. Whatever happens is an observation. -/
def observe (plan : Plan) (turn : Reply.Turn) : Action Tool.Observation :=
  match turn.action.bind fun name => if name = "" then none else plan.tool? name with
  | none => pure (.ofUnsupported turn.action turn.toolCallId)
  | some tool =>
    invoke tool tool.name (Tool.arguments tool.spec plan.session.question turn.actionInput)
      turn.actionInput turn.toolCallId

/-- What opens the placeholders of the message template. -/
def messageOpening : String := "$\x7b_interactions."

/-- The message that hands an observation back, if the session keeps messages. -/
def wrap (config : Config) (provider : Option Provider) (observation : Tool.Observation) :
    Option String :=
  let id := observation.toolCallId.getD ""
  match provider with
  | some provider => (provider.resultMessages [⟨id, observation.text⟩]).head?
  | none =>
    match config.interactionToolResponse with
    | none => none
    | some template =>
      if template = "" then none
      else
        some (Template.fill messageOpening
          [("tool_call_id", id), ("tool_response", Json.literalBody false observation.text)] .stays
          template)

/-- The entry of an observation on the scratchpad. -/
def scratchpadEntry (config : Config) (turn : Reply.Turn) (observation : Tool.Observation) :
    String :=
  let values : List (String × Option String) :=
    [("llm_tool_selection_response", turn.source), ("tool_name", some observation.toolName),
      ("tool_input", turn.actionInput), ("observation", some observation.text)]
  let values : Fields String := values.filterMap fun v => v.2.map fun text => (v.1, text)
  Template.fill Template.parametersOpening values (.vanishes []) config.toolResponse ++ "\n\n"

/-- Hands an observation back: it is reported if its tool asks for that, and entered on the
scratchpad, among the messages and in the trace. -/
def fold (plan : Plan) (progress : Progress) (turn : Reply.Turn) (observation : Tool.Observation) :
    Action Progress :=
  let progress :=
    match plan.tool? observation.toolName with
    | none => progress
    | some tool =>
      if tool.spec.includeOutput then progress.report (tool.name ++ ".output") observation.text
      else progress
  let entry := scratchpadEntry plan.config turn observation
  let progress := { progress with scratchpad := progress.scratchpad ++ [entry] }
  let progress := progress.addInteraction (wrap plan.config plan.provider observation)
  plan.record progress "ReAct" turn.actionInput (some observation.text)

/-- Runs the tool of a turn and hands its observation back. -/
def useTool (plan : Plan) (progress : Progress) (turn : Reply.Turn) : Action Progress := do
  let progress := progress.enter .toolRunning
  let observation ← plan.observe turn
  let progress := progress.enter .folded
  let progress ← plan.fold progress turn observation
  return progress.enter .dispatched

/-- The answer of a session whose calls are spent. -/
def budgetAnswer (config : Config) (lastThought : String) : String :=
  let answer := Prompt.Defaults.budgetSpent (toString config.maxIterations)
  if lastThought = "" then answer else answer ++ ". Last thought: " ++ lastThought

/-- Ends a session with a failure or an answer; after a tool call it goes on as given. -/
def settle (goOn : Progress → Reply.Turn → Action (Progress × Except Failure String)) :
    Progress → Decision → Action (Progress × Except Failure String)
  | progress, .failed failure => pure (progress, .error failure)
  | progress, .answered text => pure (progress, .ok text)
  | progress, .toolCall turn => goOn progress turn

/-- Calls the model until it answers, at most once more than `remaining` says. -/
def converse (plan : Plan) : (remaining : Nat) → Progress →
    Action (Progress × Except Failure String)
  | 0, progress => do
    let (progress, decision) ← plan.consult progress
    settle (fun progress _ =>
      pure (progress.enter .budgetSpent, .ok (budgetAnswer plan.config progress.lastThought)))
      progress decision
  | remaining + 1, progress => do
    let (progress, decision) ← plan.consult progress
    settle (fun progress turn => plan.useTool progress turn >>= plan.converse remaining)
      progress decision

/-- The failure of a session whose answer could not be saved. -/
def saveFailure (failure : Failure) : Failure :=
  match failure.kind with
  | .memory => failure
  | _ => ⟨.memory, "Failed to save the final answer: " ++ failure.text⟩

/-- Records the answer as the last step of the session, where steps are recorded. -/
def recordAnswer (plan : Plan) (progress : Progress) (answer : String) :
    Action (Except Failure Unit) := do
  match plan.tracePlace? with
  | none => return .ok ()
  | some (conversation, root) =>
    let entry : Memory.Entry :=
      { question := some plan.session.question
        response := some answer
        traceNumber := some progress.nextNumber
        finalAnswer := true }
    let saved : Except Failure String ← ask (.memory (.append conversation (some root) entry))
    return saved.map fun _ => ()

/-- The fields of the interaction that the session answers. -/
def answerFields (progress : Progress) (answer : String) : Fields Json :=
  [("response", .str answer), ("additional_info", .obj (infoMembers progress.additionalInfo))]

/-- Saves the answer: as the last step, and then in the interaction that the session answers. -/
def save (plan : Plan) (progress : Progress) (answer : String) : Action (Except Failure Unit) := do
  match plan.place? with
  | none => return .ok ()
  | some (_, root) =>
    let recorded ← plan.recordAnswer progress answer
    match recorded with
    | .error failure => return .error (saveFailure failure)
    | .ok () =>
      let fields := answerFields progress answer
      let updated : Except Failure Unit ← ask (.memory (.update root fields))
      return updated.mapError saveFailure

/-- The items that a result delivers: the place of the session, and the answer. A verbose session
delivers the response of every step, too. -/
def outputs (plan : Plan) (progress : Progress) (answer : String) : List OutputItem :=
  let response : List OutputItem :=
    if plan.config.verbose then
      (progress.trace.map fun step => { name := "response", result := step.response }) ++
        [{ name := "response", result := some answer }]
    else [{ name := "response", data := some (answerFields progress answer) }]
  { name := "memory_id", result := plan.session.conversation } ::
    { name := "parent_interaction_id", result := plan.session.root } :: response

/-- The result of a session that has come to an answer. -/
def result (plan : Plan) (progress : Progress) (answer : String) : Result where
  outputs := plan.outputs progress answer
  finalAnswer := answer
  additionalInfo := progress.additionalInfo
  terminalPhase := progress.phase
  iterations := progress.calls

/-- Saves what the session has come to. -/
def conclude (plan : Plan) (progress : Progress) :
    Except Failure String → Action (Except Failure Result)
  | .error failure => pure (.error failure)
  | .ok answer => do
    let saved ← plan.save progress answer
    return saved.map fun () => plan.result progress answer

/-- Runs a session. How far it got is told in any case. -/
def run (plan : Plan) : Action (Progress × Except Failure Result) := do
  let (progress, outcome) ← plan.converse (plan.config.maxIterations - 1) {}
  let result ← plan.conclude progress outcome
  closeTools plan.tools
  return (progress, result)

end Plan

end ReAct.Session
