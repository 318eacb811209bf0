import ReAct.Failure
import ReAct.Tool.Spec

/-!
# Kinds of tools

A registry knows kinds of tools by the types that specifications name. A kind that is registered
here needs nothing but its parameters; it can neither fail to be built nor to be closed. One such
kind is built in.
-/

namespace ReAct.Tool

/-- A kind of tools: the description by default, the parameters it insists on, and what a run
returns. -/
structure Kind where
  description : Option String
  required : List String
  run : Fields String → Except String Json

/-- What a session sees of a tool of a kind. -/
def Kind.face (kind : Kind) (spec : Spec) : Face :=
  ⟨describe spec kind.description, kind.required⟩

/-- The tool that returns its input. -/
def echo : Kind where
  description := some "Use this tool to repeat the given input back verbatim."
  required := ["input"]
  run := fun parameters => .ok (Json.ofText? (parameters.get? "input"))

/-- Kinds by their types. -/
abbrev Registry : Type := Fields Kind

namespace Registry

/-- The registry to begin with. -/
def builtIn : Registry :=
  [("EchoTool", echo)]

/-- The failure of a type that is registered twice. -/
def taken (type : String) : Failure :=
  ⟨.value, "Tool type '" ++ type ++ "' is already registered."⟩

/-- Registers a kind under a type; a type is registered once. -/
def register (registry : Registry) (type : String) (kind : Kind) : Except Failure Registry :=
  if Fields.has registry type then .error (taken type) else .ok (Fields.put registry type kind)

end Registry

end ReAct.Tool
