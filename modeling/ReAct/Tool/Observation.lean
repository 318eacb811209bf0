import ReAct.Json.Printer
import ReAct.Tool.Spec

/-!
# Observations

The outcome of a tool call as the model is told of it. A call that fails is an observation too: the
tool may be missing, refuse its parameters or break down.
-/

namespace ReAct.Tool

open Record

/-- How a tool call ended. -/
inductive Observation.Kind where
  | success
  | validationFailure
  | executionFailure
  | unsupported
  deriving DecidableEq

/-- The name of a kind. -/
def Observation.Kind.name : Observation.Kind → String
  | .success => "success"
  | .validationFailure => "validation_failure"
  | .executionFailure => "execution_failure"
  | .unsupported => "unsupported"

/-- The kind of a name. -/
def Observation.Kind.ofName? (name : String) : Option Observation.Kind :=
  [Observation.Kind.success, .validationFailure, .executionFailure, .unsupported].find? fun kind =>
    kind.name == name

/-- The outcome of a tool call. -/
structure Observation where
  toolName : String
  kind : Observation.Kind
  text : String
  toolCallId : Option String

namespace Observation

/-- Whether the tool ran and returned. -/
def ok (observation : Observation) : Bool :=
  observation.kind = .success

/-- A name as messages show it. -/
def shownName (name : Option String) : String :=
  name.getD "None"

/-- The outcome of a call to a tool that the session does not have. -/
def ofUnsupported (name toolCallId : Option String) : Observation where
  toolName := name.getD ""
  kind := .unsupported
  text := "Failed to run the tool " ++ shownName name ++ " which is unsupported."
  toolCallId := toolCallId

/-- The outcome of a call whose parameters the tool refuses. -/
def ofRefused (name : String) (actionInput toolCallId : Option String) : Observation where
  toolName := name
  kind := .validationFailure
  text :=
    "Failed to run the tool " ++ name ++ " due to wrong input " ++ shownName actionInput ++ "."
  toolCallId := toolCallId

/-- The outcome of a run: the tool's output, or the text of the failure that it raised. An output is
a JSON value here; one that cannot be written as a text, which is no failure of the run, is left
out. -/
def ofRun (name : String) (toolCallId : Option String) : Except String Json → Observation
  | .ok value => ⟨name, .success, value.output, toolCallId⟩
  | .error text =>
    ⟨name, .executionFailure,
      "Failed to run the tool " ++ name ++ " with the error message " ++ text ++ ".", toolCallId⟩

/-- Reads an observation from an object. -/
def check : Check Observation :=
  record fun members =>
    Observation.mk <$> required members "tool_name" Record.text
      <*> required members "kind" (choice Kind.ofName?)
      <*> required members "text" Record.text
      <*> defaulted members "tool_call_id" none (optional Record.text)

/-- The observation as an object. -/
def toJson (observation : Observation) : Json :=
  .obj
    [("tool_name", .str observation.toolName), ("kind", .str observation.kind.name),
      ("text", .str observation.text), ("tool_call_id", Json.ofText? observation.toolCallId)]

end Observation

end ReAct.Tool
