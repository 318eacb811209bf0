import ReAct.Prompt.History
import ReAct.Session.Configuration
import ReAct.Session.Loop

/-!
# Inquiries

An inquiry is a question to an agent. To answer it, the agent's parameters and those of the request
are merged into a configuration, a place in conversation memory is found or made, the conversation
so far is recalled, the tools are built, the prompt is assembled, and the tools are declared to the
provider; then the session runs.

Tools come from the agent and from a catalogue; a tool of the catalogue replaces a namesake. A
catalogue that cannot be queried is passed over, and the agent has its own tools only.

Everything that is the same for all inquiries of a process is its `Host`. A host may know reasons
for which tools cannot be declared, besides the limits of its interpreter: a protocol of its own
that fails, or attributes of a tool that are no JSON values. Which these are is left to it.
-/

namespace ReAct.Session

open ReAct.Text

/-- What all inquiries of a process share. -/
structure Host where
  settings : Settings := {}
  /-- The protocols of providers by their names. -/
  providers : Provider.Registry := Provider.builtIn
  /-- The types of tools that can be built. -/
  toolTypes : List String
  /-- Whether there is conversation memory. -/
  remembers : Bool
  /-- Whether there is a catalogue of tools. -/
  discovers : Bool
  /-- The present moment. -/
  now : Moment
  /-- The limits of the interpreter. -/
  limits : Json.Limits := {}
  /-- Why tools cannot be declared to a provider, if there is a reason. -/
  undeclarable : Provider → List Tool.Entry → Option Failure := fun _ _ => none

/-- A question to an agent. -/
structure Inquiry where
  question : String
  /-- The parameters of the request, which count before those of the agent. -/
  parameters : Parameters := []
  conversation : Option String := none
  /-- The interaction in memory that is to be answered. -/
  root : Option String := none
  /-- What the catalogue of tools is shown. -/
  credentials : Option (Fields String) := none

/-- Lets an action that may fail stand in a sequence that stops at the first failure. -/
def attempt {α : Type} (action : Action (Except Failure α)) : Attempt α :=
  ExceptT.mk action

/-- Lets a computation that may fail stand in such a sequence. -/
def settled {α : Type} (result : Except Failure α) : Attempt α :=
  ExceptT.mk (pure result)

/-- A text that is there and not empty. -/
def present? (text : Option String) : Option String :=
  text.filter fun text => text ≠ ""

namespace Host

/-- The conversation of an inquiry; without one, a new one is begun, entitled with the question. -/
def conversation (inquiry : Inquiry) : Attempt String :=
  match present? inquiry.conversation with
  | some conversation => pure conversation
  | none => attempt (ask (.memory (.createSession (.str inquiry.question))))

/-- The interaction that an inquiry answers; without one, a new one is entered, whose response is
empty until the session ends. -/
def root (inquiry : Inquiry) (conversation : String) : Attempt String :=
  match present? inquiry.root with
  | some root => pure root
  | none =>
    let entry : Memory.Entry := { question := some inquiry.question, response := some "" }
    attempt (ask (.memory (.append conversation none entry)))

/-- The session of an inquiry. -/
def start (host : Host) (inquiry : Inquiry) : Attempt Session :=
  if host.remembers then do
    let conversation ← conversation inquiry
    let root ← root inquiry conversation
    return { conversation := some conversation, root := some root, question := inquiry.question }
  else
    return {
      conversation := inquiry.conversation
      root := inquiry.root
      question := inquiry.question
    }

/-- The completed turns of the conversation of a session. -/
def earlierTurns (host : Host) (session : Session) (limit : Nat) : Attempt (List Message) :=
  match host.remembers, present? session.conversation with
  | true, some conversation => attempt (ask (.memory (.recent conversation limit)))
  | _, _ => pure []

/-- The tools that a catalogue adds to those of an agent. Only a failure of another kind than that
of discovery stops the session. -/
def discovered (host : Host) (agent : Agent) (inquiry : Inquiry) : Attempt (List Tool.Spec) :=
  if host.discovers then
    attempt do
      let answer : Except Failure (List Tool.Spec) ← ask (.discover agent inquiry.credentials)
      match answer with
      | .ok specs => return .ok specs
      | .error failure =>
        match failure.kind with
        | .discovery => return .ok []
        | _ => return .error failure
  else pure []

/-- The parameters of every model call, before the history and the tools are added. -/
def modelParameters (agent : Agent) (params : Parameters) (config : Config) : Fields Json :=
  let options := Fields.merge (agent.model.parameters.mapValues Json.str) params
  let framing : Fields Json :=
    [("stop", .str ((Json.ofTexts config.stop).print Json.spacedAscii)),
      ("stop_sequences", .str ((Json.ofTexts config.stopSequences).print Json.spacedAscii)),
      ("prompt.prefix", .str config.promptOpening), ("prompt.suffix", .str config.promptClosing)]
  let params := Fields.merge options framing
  match config.systemPrompt with
  | none => params
  | some text => Fields.put params "system_prompt" (.str text)

/-- The parameters of the prompt and of the model calls, after the history has found its place: in
the calls if the history has templates, else in the prompt, unless that has a history of its own. -/
def placeHistory (config : Config) (history : String) (prompt model : Fields Json) :
    Fields Json × Fields Json :=
  match config.chatQuestion with
  | some _ => (prompt, Fields.put model "_chat_history" (.str history))
  | none =>
    if Fields.has prompt "chat_history" then (prompt, model)
    else (Fields.put prompt "chat_history" (.str history), model)

/-- Takes a result that is made of tools. Where there is none, the tools are closed. -/
def orClose {α : Type} (tools : List Tool.Entry) : Except Failure α → Attempt α
  | .ok a => attempt (return .ok a)
  | .error failure =>
    attempt do
      closeTools tools
      return .error failure

/-- The declarations of tools, if tools can be declared. -/
def declarations (host : Host) (provider : Provider) (tools : List Tool.Entry) :
    Except Failure String :=
  match host.undeclarable provider tools, provider.declarationsOverrun? host.limits tools with
  | some failure, _ => .error failure
  | none, some overrun => .error overrun.failure
  | none, none => .ok (provider.declarations tools)

/-- What the model is told of the tools: the prompt, and the parameters of the model calls with the
tools declared among them. -/
def brief (host : Host) (provider : Option Provider) (promptParams modelParams : Fields Json)
    (tools : List Tool.Entry) (config : Config) : Except Failure (String × Fields Json) := do
  let prompt ←
    Prompt.assembleWithin host.limits promptParams tools (tools.map Tool.Entry.name) config
  match provider with
  | none => return (prompt, modelParams)
  | some provider =>
    let declared ← host.declarations provider tools
    return (prompt, Fields.put modelParams "_tools" (.str declared))

/-- Everything that a session of an inquiry needs. -/
def prepare (host : Host) (agent : Agent) (inquiry : Inquiry) : Attempt Plan := do
  let params := Fields.merge (agent.parameters.mapValues Json.str) inquiry.parameters
  let (config, provider) ← settled (configure host.settings host.providers params)
  let config := Prompt.injectMoment config host.now
  let session ← host.start inquiry
  let messages ← host.earlierTurns session config.messageHistoryLimit
  let (promptParams, modelParams) :=
    placeHistory config (Prompt.history messages config)
      (Fields.put params "question" (.str inquiry.question)) (modelParameters agent params config)
  let added ← host.discovered agent inquiry
  let tools ← attempt (createTools host.toolTypes (agent.tools ++ added))
  let (prompt, modelParams) ←
    orClose tools (host.brief provider promptParams modelParams tools config)
  return {
    session := session
    model := agent.model.id
    config := config
    prompt := prompt
    tools := tools
    modelParameters := modelParams
    remembers := host.remembers
    provider := provider
    limits := host.limits
  }

/-- Answers an inquiry. -/
def answer (host : Host) (agent : Agent) (inquiry : Inquiry) : Action (Except Failure Result) := do
  let prepared : Except Failure Plan ← (host.prepare agent inquiry).run
  match prepared with
  | .error failure => return .error failure
  | .ok plan =>
    let (_, result) ← plan.run
    return result

end Host

end ReAct.Session
