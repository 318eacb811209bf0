import ReAct.Agent
import ReAct.Memory.Interaction
import ReAct.Message
import ReAct.Prompt.Section
import ReAct.Reply.Paths
import ReAct.Reply.Turn
import ReAct.Session.Result

/-!
# Records by name

The kinds of records that sessions exchange, for callers that inspect or edit records without
knowing their kind. A record shows its fields and what it derives from them. Its fields can be
replaced, by any value, unless its kind is frozen.
-/

namespace ReAct

open Record

/-- What a record shows. -/
structure Inspection where
  fields : Fields Json
  derived : Fields Json := []

/-- A kind of records. -/
structure Schema where
  name : String
  /-- Whether records of the kind never change. -/
  frozen : Bool := false
  /-- Names that a record derives and that cannot be written. -/
  readOnly : List String := []
  inspect : Json → Checked Inspection

namespace Schema

/-- The members of an object. -/
def membersOf : Json → Fields Json
  | .obj members => members
  | _ => []

/-- A kind of records that derive nothing. -/
def plain {α : Type} (name : String) (check : Check α) (toJson : α → Json) : Schema where
  name := name
  inspect := fun v => (check v).map fun a => { fields := membersOf (toJson a) }

/-- The kinds of records. -/
def all : List Schema :=
  [{ name := "ToolSpec"
     frozen := true
     inspect := fun v => (Tool.Spec.check v).map fun spec =>
       { fields := membersOf spec.toJson, derived := [("tool_name", .str spec.toolName)] } },
    plain "LLMSpec" Agent.Model.check Agent.Model.toJson,
    plain "AgentDefinition" Agent.check Agent.toJson,
    plain "AgentSession" Session.check Session.toJson,
    { name := "IterationState"
      readOnly := ["is_final"]
      inspect := fun v => (Reply.Turn.check v).map fun turn =>
        { fields := membersOf turn.toJson, derived := [("is_final", .bool turn.isFinal)] } },
    { plain "TraceStep" Session.TraceStep.check Session.TraceStep.toJson with frozen := true },
    plain "Message" Message.check Message.toJson,
    plain "InteractionRecord" Memory.Entry.check fun entry => .obj entry.members,
    plain "OutputItem" Session.OutputItem.check Session.OutputItem.toJson,
    { name := "AgentResult"
      inspect := fun v => (Session.Result.check v).map fun result =>
        { fields := membersOf result.toJson
          derived := [("is_terminal", .bool result.terminalPhase.isTerminal)] } },
    plain "SectionFormat" Prompt.SectionFormat.check fun format => (format.map Json.str).toJson,
    plain "ParserConfig" Reply.Paths.check Reply.Paths.toJson]

/-- The kind of a name. -/
def find? (name : String) : Option Schema :=
  all.find? fun schema => schema.name == name

/-- The failure of a field that records of the kind do not have. -/
def noField (schema : Schema) (name : String) : Failure :=
  ⟨.value, "\"" ++ schema.name ++ "\" object has no field \"" ++ name ++ "\""⟩

/-- Replaces a field of a record. Names that start with an underscore are private: they can always
be written, and no record shows them. -/
def assign (schema : Schema) (fields : Fields Json) (name : String) (value : Json) :
    Except Failure (Fields Json) :=
  if name.toList.head? = some '_' then .ok fields
  else if schema.frozen then .error (failure [⟨[name], .frozen⟩])
  else if schema.readOnly.contains name then
    .error ⟨.attribute, "property '" ++ name ++ "' of '" ++ schema.name ++ "' object has no setter"⟩
  else if Fields.has fields name then .ok (Fields.put fields name value)
  else .error (schema.noField name)

end Schema

end ReAct
