import ReAct.Http.Catalog
import ReAct.Http.Model
import ReAct.Memory.Journal
import ReAct.Session.Request
import ReAct.Session.Toolbox
import ReAct.Tool.Registry

/-!
# The desk of a command

Where a command answers the requests of its session: models and catalogues are reached over HTTP,
tools are those of a registry, and memory is a journal.
-/

namespace ReAct.CommandLine

/-- What a command needs of its surroundings. -/
structure Surroundings (m : Type → Type) where
  /-- Makes an HTTP exchange. -/
  exchange : Http.Request → m Http.Outcome
  /-- Reads a file, if it can be read. -/
  load : String → m (Option String)
  /-- Looks at the file of a journal. -/
  lookUp : String → m Memory.Disk
  /-- Leaves the file of a journal as it is to be. -/
  putDown : String → Memory.Disk → m Unit
  /-- Prints a text. -/
  print : String → m Unit

/-- What stays the same while a command is carried out. -/
structure Desk where
  /-- The endpoint of the model. -/
  endpoint : String
  /-- The address of the catalogue of tools. -/
  catalogue : Option String
  kinds : Tool.Registry := Tool.Registry.builtIn
  registrar : Memory.Registrar

/-- What changes while a command is carried out. -/
structure Desk.State where
  /-- The kinds of the tools that have been built, by the tools' names. -/
  tools : Tool.Registry := []
  journal : Option Memory.Journal := none
  /-- How many identifiers have been drawn. -/
  drawn : Nat := 0

namespace Desk

/-- The failure of a request to a memory that is not there. -/
def noMemory : Failure :=
  ⟨.memory, "There is no conversation memory"⟩

/-- Answers a request to memory. -/
def remember {m : Type → Type} [Monad m] (desk : Desk) (surroundings : Surroundings m)
    (request : Memory.Request) : StateT Desk.State m (Except Failure request.Answer) := do
  let state ← get
  match state.journal with
  | none => return .error noMemory
  | some journal =>
    let disk ← surroundings.lookUp journal.path
    let before : Memory.Journal.State := ⟨journal, disk, state.drawn⟩
    let (answer, after) := before.serve desk.registrar request
    surroundings.putDown journal.path after.disk
    set { state with journal := some after.journal, drawn := after.drawn }
    return answer.mapError Memory.Error.failure

/-- Answers a request of a session. -/
def serve {m : Type → Type} [Monad m] (desk : Desk) (surroundings : Surroundings m) :
    (request : Session.Request) → StateT Desk.State m request.Answer
  | .callModel model parameters =>
    (Http.Model.call surroundings.exchange desk.endpoint model parameters :
      m (Except Failure Reply))
  | .buildTool spec => show StateT Desk.State m (Except Failure Tool.Face) from do
    match Fields.get? desk.kinds spec.type with
    | none => return .error (Session.unknownType spec.type)
    | some kind =>
      modify fun state => { state with tools := Fields.put state.tools spec.toolName kind }
      return .ok (kind.face spec)
  | .runTool name parameters => show StateT Desk.State m (Except String Json) from do
    match Fields.get? (← get).tools name with
    | none => return .error (name ++ " has not been built")
    | some kind => return kind.run parameters
  | .closeTool _ => (pure (.ok ()) : StateT Desk.State m (Except String Unit))
  | .memory request => desk.remember surroundings request
  | .discover agent credentials =>
    (Http.Catalog.fetch surroundings.exchange desk.catalogue agent credentials :
      m (Except Failure (List Tool.Spec)))

end Desk

end ReAct.CommandLine
