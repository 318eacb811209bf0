import ReAct.Record.Check

/-!
# Where a reply keeps its parts

The paths into a model's reply that lead to its text, its tool calls and the parts of one, and to
the reason why the model stopped. An agent and the provider of its model choose paths; what neither
chooses has a default.
-/

namespace ReAct.Reply

open Record

/-- The paths in force. -/
structure Paths where
  text : Option String := none
  toolCalls : Option String := none
  toolName : String := "name"
  toolInput : String := "input"
  toolCallId : String := "id"
  finishReason : Option String := none
  /-- The reason for stopping that announces a tool call; without one, every reason does. -/
  toolUseReason : Option String := none

/-- A choice of paths. -/
structure PathChoices where
  text : Option String := none
  toolCalls : Option String := none
  toolName : Option String := none
  toolInput : Option String := none
  toolCallId : Option String := none
  finishReason : Option String := none
  toolUseReason : Option String := none

namespace PathChoices

/-- The first choice where it is made, else the second. -/
def orElse (first second : PathChoices) : PathChoices where
  text := first.text <|> second.text
  toolCalls := first.toolCalls <|> second.toolCalls
  toolName := first.toolName <|> second.toolName
  toolInput := first.toolInput <|> second.toolInput
  toolCallId := first.toolCallId <|> second.toolCallId
  finishReason := first.finishReason <|> second.finishReason
  toolUseReason := first.toolUseReason <|> second.toolUseReason

/-- The paths of a choice, defaults where it leaves one open. -/
def complete (choices : PathChoices) : Paths where
  text := choices.text
  toolCalls := choices.toolCalls
  toolName := choices.toolName.getD "name"
  toolInput := choices.toolInput.getD "input"
  toolCallId := choices.toolCallId.getD "id"
  finishReason := choices.finishReason
  toolUseReason := choices.toolUseReason

/-- Reads a choice from an object, each path under the name that `nameOf` gives it. Only present
and non-empty paths are choices. -/
def check (members : Fields Json) : Checked PathChoices :=
  let chosen (name : String) : Checked (Option String) :=
    defaulted (members.filter fun m => m.2.truthy) name none fun v => (Record.text v).map some
  PathChoices.mk <$> chosen "response_filter"
    <*> chosen "tool_calls_path"
    <*> chosen "tool_name_path"
    <*> chosen "tool_input_path"
    <*> chosen "tool_call_id_path"
    <*> chosen "finish_reason_path"
    <*> chosen "finish_reason_tool_use"

end PathChoices

namespace Paths

/-- Reads paths from an object. -/
def check : Check Paths :=
  record fun members =>
    Paths.mk <$> defaulted members "response_filter" none (optional Record.text)
      <*> defaulted members "tool_calls_path" none (optional Record.text)
      <*> defaulted members "tool_name_path" "name" Record.text
      <*> defaulted members "tool_input_path" "input" Record.text
      <*> defaulted members "tool_call_id_path" "id" Record.text
      <*> defaulted members "finish_reason_path" none (optional Record.text)
      <*> defaulted members "finish_reason_tool_use" none (optional Record.text)

/-- The paths as an object. -/
def toJson (paths : Paths) : Json :=
  .obj
    [("response_filter", Json.ofText? paths.text),
      ("tool_calls_path", Json.ofText? paths.toolCalls),
      ("tool_name_path", .str paths.toolName), ("tool_input_path", .str paths.toolInput),
      ("tool_call_id_path", .str paths.toolCallId),
      ("finish_reason_path", Json.ofText? paths.finishReason),
      ("finish_reason_tool_use", Json.ofText? paths.toolUseReason)]

end Paths

end ReAct.Reply
