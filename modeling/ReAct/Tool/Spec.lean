import ReAct.Record.Check

/-!
# Tool specifications

The declaration of a tool that an agent may call, and the face that the built tool shows to a
session: its description and the parameters it insists on.
-/

namespace ReAct.Tool

open Record

/-- The declaration of a tool. -/
structure Spec where
  /-- The kind of tool to build. -/
  type : String
  /-- The name shown to the model; the kind where there is none. -/
  name : Option String := none
  description : Option String := none
  /-- Parameters that every call starts from. -/
  parameters : Fields String := []
  /-- Templates of parameters, filled from the parameters of a call. -/
  config : Fields String := []
  attributes : Fields Json := []
  /-- Whether the input is the user's question, whatever the model writes. -/
  inputIsQuestion : Bool := false
  /-- Whether the outputs are reported with the answer. -/
  includeOutput : Bool := false

namespace Spec

/-- The name under which the tool is shown to the model. -/
def toolName (spec : Spec) : String :=
  match spec.name with
  | none => spec.type
  | some name => if name = "" then spec.type else name

/-- Reads a specification from an object. -/
def check : Check Spec :=
  record fun members =>
    Spec.mk <$> required members "type" text
      <*> defaulted members "name" none (optional text)
      <*> defaulted members "description" none (optional text)
      <*> defaulted members "parameters" [] (table text)
      <*> defaulted members "config" [] (table text)
      <*> defaulted members "attributes" [] (table any)
      <*> defaulted members "use_original_input" false flag
      <*> defaulted members "include_output_in_agent_response" false flag

/-- The specification as an object. -/
def toJson (spec : Spec) : Json :=
  .obj
    [("type", .str spec.type), ("name", Json.ofText? spec.name),
      ("description", Json.ofText? spec.description),
      ("parameters", Json.ofTextFields spec.parameters), ("config", Json.ofTextFields spec.config),
      ("attributes", .obj spec.attributes), ("use_original_input", .bool spec.inputIsQuestion),
      ("include_output_in_agent_response", .bool spec.includeOutput)]

end Spec

/-- What a session sees of a tool that has been built. The tool checks its parameters by name; one
that checks them in a way of its own, which might fail, is left out. -/
structure Face where
  /-- The text that describes the tool to the model. -/
  description : Option String
  /-- The parameters without which the tool is not run. -/
  required : List String

/-- A tool of a session: its declaration and its face. -/
structure Entry where
  spec : Spec
  face : Face

/-- The name of a tool. -/
def Entry.name (entry : Entry) : String :=
  entry.spec.toolName

/-- The description a tool shows: that of its declaration, else that of its kind. -/
def describe (spec : Spec) (byDefault : Option String) : Option String :=
  match spec.description with
  | none => byDefault
  | some text => if text = "" then byDefault else some text

/-- Whether every parameter that a tool insists on is there and not empty. -/
def Face.accepts (face : Face) (parameters : Fields String) : Bool :=
  face.required.all fun name => (parameters.get? name).getD "" ≠ ""

end ReAct.Tool
