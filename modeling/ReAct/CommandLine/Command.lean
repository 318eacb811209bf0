import ReAct.CommandLine.Desk
import ReAct.CommandLine.Options
import ReAct.Json.Display
import ReAct.Session.Inquiry
import ReAct.Terminal

/-!
# The command

Loads the definition of an agent, puts one question to it and prints the answer. A definition that
cannot be loaded is a misuse. A model or a memory that fails is reported in red; any other failure
is handed to the caller.
-/

namespace ReAct.CommandLine

open Terminal (Color line)

/-- How a command ends: the exit code, or the failure that nobody handled, and the level of logging
that is set then. -/
structure Ending where
  exit : Except Failure Nat
  logLevel : String

/-- The agent that a text defines. -/
def agentOf? (text : String) : Option Agent :=
  match (Json.read? text).map Agent.check with
  | some (.valid agent) => some agent
  | _ => none

/-- An item of a result as it is printed: its text if that is not empty, else its object. -/
def itemText (item : Session.OutputItem) : String :=
  match item.result.filter fun text => text ≠ "" with
  | some text => text
  | none => (Json.ofOption Json.obj item.data).display

/-- The lines of a result. -/
def report (verbose : Bool) (result : Session.Result) : List String :=
  let items :=
    if verbose then
      result.outputs.map fun item => line .blue ("[" ++ item.name ++ "] " ++ itemText item)
    else []
  let outputs := result.additionalInfo.map fun output =>
    line .yellow (output.1 ++ ": " ++ (Json.ofTexts output.2).display)
  items ++ line .green result.finalAnswer :: outputs

/-- The desk of a command. -/
def Options.desk (options : Options) (settings : Settings) (registrar : Memory.Registrar) :
    Desk where
  endpoint := if options.endpoint = "" then settings.modelEndpoint else options.endpoint
  catalogue := settings.toolCatalogUrl
  registrar := registrar

/-- What all inquiries of a command share. -/
def Options.host (options : Options) (settings : Settings) (now : Moment) : Session.Host where
  settings := settings
  toolTypes := Tool.Registry.builtIn.names
  remembers := (Session.present? options.memoryFile).isSome
  discovers := (Session.present? settings.toolCatalogUrl).isSome
  now := now

/-- The inquiry that a command makes. -/
def Options.inquiry (options : Options) : Session.Inquiry where
  question := options.question
  parameters := if options.verbose then [("verbose", .str "true")] else []
  conversation := Session.present? options.conversation

variable {m : Type → Type} [Monad m]

/-- Puts the question to an agent. -/
def Options.ask (options : Options) (surroundings : Surroundings m) (registrar : Memory.Registrar)
    (settings : Settings) (agent : Agent) : m (Except Failure Session.Result) := do
  let desk := options.desk settings registrar
  let session := (options.host settings registrar.now).answer agent options.inquiry
  let journal := (Session.present? options.memoryFile).map fun path => { path : Memory.Journal }
  let (result, _) ← (session.run (desk.serve surroundings)).run { journal := journal }
  return result

/-- The failures that a command reports itself. -/
def reported (failure : Failure) : Bool :=
  failure.kind = .model || failure.kind = .memory

/-- Carries a command out. -/
def execute (surroundings : Surroundings m) (registrar : Memory.Registrar) (settings : Settings)
    (arguments : List String) : m Ending := do
  match parse settings arguments with
  | .error refusal => return ⟨.ok refusal.exitCode, settings.logLevel⟩
  | .ok options =>
    let text ← surroundings.load options.agent
    match text.bind agentOf? with
    | none => return ⟨.ok 2, options.logLevel⟩
    | some agent =>
      let result ← options.ask surroundings registrar settings agent
      match result with
      | .ok result =>
        (report options.verbose result).forM surroundings.print
        return ⟨.ok 0, options.logLevel⟩
      | .error failure =>
        if reported failure then
          surroundings.print (line .red ("⚠️ " ++ failure.text))
          return ⟨.ok 1, options.logLevel⟩
        else return ⟨.error failure, options.logLevel⟩

end ReAct.CommandLine
