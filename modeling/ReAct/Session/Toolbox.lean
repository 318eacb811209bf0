import ReAct.Session.Request
import ReAct.Tool.Observation

/-!
# The tools of a session

A session gets one tool for every tool name. Specifications are resolved by name before anything is
built, so no tool is ever built and then dropped, and a tool of an unknown type is refused before
any other is built. Whoever has built tools closes all of them, whatever happens; that one of them
fails to close keeps nobody from closing the rest.

A tool that is invoked is run only if it accepts the parameters. Whatever happens is an observation.
-/

namespace ReAct.Session

/-- Specifications by tool name: of those with one name the last counts, at the place of the
first. -/
def resolve (specs : List Tool.Spec) : Fields Tool.Spec :=
  Fields.ofEntries (specs.map fun spec => (spec.toolName, spec))

/-- The failure of a type that no tool has. -/
def unknownType (type : String) : Failure :=
  ⟨.value, "Tool type '" ++ type ++ "' is not registered."⟩

/-- Closes tools, in order. -/
def closeTools : List Tool.Entry → Action Unit
  | [] => pure ()
  | tool :: rest => do
    let _ ← ask (.closeTool tool.name)
    closeTools rest

/-- Builds tools, in order, behind those that are built already. If one cannot be built, all that
are built are closed. -/
def buildTools (built : List Tool.Entry) :
    List Tool.Spec → Action (Except Failure (List Tool.Entry))
  | [] => pure (.ok built)
  | spec :: rest => do
    let answer : Except Failure Tool.Face ← ask (.buildTool spec)
    match answer with
    | .ok face => buildTools (built ++ [⟨spec, face⟩]) rest
    | .error failure =>
      closeTools built
      return .error failure

/-- Builds one tool for every tool name. The types that are known are given. -/
def createTools (types : List String) (specs : List Tool.Spec) :
    Action (Except Failure (List Tool.Entry)) :=
  let specs := (resolve specs).values
  match specs.find? fun spec => !types.contains spec.type with
  | some spec => pure (.error (unknownType spec.type))
  | none => buildTools [] specs

/-- Invokes a tool under a name. -/
def invoke (tool : Tool.Entry) (name : String) (parameters : Fields String)
    (actionInput toolCallId : Option String) : Action Tool.Observation :=
  if tool.face.accepts parameters then do
    let answer : Except String Json ← ask (.runTool tool.name parameters)
    return .ofRun name toolCallId answer
  else pure (.ofRefused name actionInput toolCallId)

end ReAct.Session
