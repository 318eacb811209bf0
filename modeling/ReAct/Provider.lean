import ReAct.Json.Limits
import ReAct.Json.Path
import ReAct.Json.Printer
import ReAct.Json.Reader
import ReAct.Reply.Paths
import ReAct.Reply.Turn
import ReAct.Text.Blank
import ReAct.Text.Lowercase
import ReAct.Tool.Spec

/-!
# Providers with native tool use

A provider has its own protocol for tools: where its replies keep their parts, how tools are
declared, how the model's own turn is repeated in the next request, and how the result of a tool is
handed back. Three protocols are built in. They are registered by name; an agent names the one that
its model speaks.
-/

namespace ReAct

open ReAct.Text

/-- The protocols. -/
inductive Provider where
  /-- Chat completions with `tool_calls` on the message and results in the role of the tool. -/
  | chatCompletions
  /-- Conversations with `toolUse` blocks and `toolResult` replies. -/
  | toolBlocks
  /-- Conversations of a model without native tools, which writes a JSON envelope into its text. -/
  | envelope
  deriving DecidableEq

namespace Provider

/-- The paths into a provider's replies. -/
def pathChoices : Provider → Reply.PathChoices
  | .chatCompletions =>
    { text := some "$.choices[0].message.content"
      toolCalls := some "$.choices[0].message.tool_calls"
      toolName := some "function.name"
      toolInput := some "function.arguments"
      toolCallId := some "id"
      finishReason := some "$.choices[0].finish_reason"
      toolUseReason := some "tool_calls" }
  | .toolBlocks =>
    { text := some "$.output.message.content[0].text"
      toolCalls := some "$.output.message.content[*].toolUse"
      toolName := some "name"
      toolInput := some "input"
      toolCallId := some "toolUseId"
      finishReason := some "$.stopReason"
      toolUseReason := some "tool_use" }
  | .envelope =>
    { text := some "$.output.message.content[0].text"
      toolCalls := some "_llm_response.tool_calls"
      toolName := some "tool_name"
      toolInput := some "input"
      toolCallId := some "id"
      finishReason := some "_llm_response.stop_reason"
      toolUseReason := some "tool_use" }

/-- The schema of the input of a tool that declares none: one text. -/
def plainSchema : Fields Json :=
  [("type", .str "object"), ("properties", .obj [("input", .obj [("type", .str "string")])]),
    ("required", Json.ofTexts ["input"])]

/-- The schema of a tool's input: an object among its attributes, or the JSON text of one. -/
def inputSchema (spec : Tool.Spec) : Json :=
  match spec.attributes.get? "input_schema" with
  | some (.obj members) => .obj members
  | some (.str s) =>
    match Json.read? s with
    | some (.obj members) => .obj members
    | _ => .obj plainSchema
  | _ => .obj plainSchema

/-- The declaration of a tool. -/
def declaration (provider : Provider) (tool : Tool.Entry) : Json :=
  let name := Json.str tool.name
  let description := Json.ofText? tool.face.description
  let schema := inputSchema tool.spec
  match provider with
  | .chatCompletions =>
    .obj
      [("type", .str "function"),
        ("function", .obj [("name", name), ("description", description), ("parameters", schema)])]
  | .toolBlocks =>
    .obj
      [("toolSpec", .obj
        [("name", name), ("description", description), ("inputSchema", .obj [("json", schema)])])]
  | .envelope =>
    .obj [("tool_name", name), ("description", description), ("input_schema", schema)]

/-- The declarations of tools, as a JSON text. -/
def declarations (provider : Provider) (tools : List Tool.Entry) : String :=
  (Json.arr (tools.map provider.declaration)).print Json.spaced

/-- What is exceeded where the schema of a tool's input is read. -/
def schemaOverrun? (limits : Json.Limits) (tool : Tool.Entry) : Option Json.Overrun :=
  match tool.spec.attributes.get? "input_schema" with
  | some (.str s) => limits.readOverrun? .refused s.toList
  | _ => none

/-- What is exceeded where tools are declared. -/
def declarationsOverrun? (provider : Provider) (limits : Json.Limits) (tools : List Tool.Entry) :
    Option Json.Overrun :=
  tools.findSome? (schemaOverrun? limits) <|>
    limits.writeOverrun? (.arr (tools.map provider.declaration))

/-- The model's turn in a reply, as it is repeated in the next request. -/
def modelTurn (provider : Provider) (reply : Json) : Option String :=
  let whole (path : String) : Option String :=
    let message := reply.readPath path
    if message.truthy then some (message.print Json.spaced) else none
  match provider with
  | .chatCompletions => whole "$.choices[0].message"
  | .toolBlocks => whole "$.output.message"
  | .envelope =>
    match reply.readPath "$.output.message.content[0].text" with
    | .null => none
    | text =>
      some ((Json.obj
        [("role", .str "assistant"), ("content", .arr [.obj [("text", text)]])]).print Json.spaced)

/-- The result of a tool call. -/
structure ToolResult where
  toolCallId : String
  text : String

/-- Reads the result of a tool call from an object. -/
def ToolResult.check : Record.Check ToolResult :=
  Record.record fun members =>
    ToolResult.mk <$> Record.required members "tool_call_id" Record.text
      <*> Record.required members "text" Record.text

/-- The messages that hand results back, as JSON texts. -/
def resultMessages (provider : Provider) (results : List ToolResult) : List String :=
  match provider with
  | .chatCompletions =>
    results.map fun result =>
      (Json.obj
        [("role", .str "tool"), ("content", .str result.text),
          ("tool_call_id", .str result.toolCallId)]).print Json.spaced
  | .toolBlocks =>
    if results.isEmpty then []
    else
      let block (result : ToolResult) : Json :=
        .obj
          [("toolResult", .obj
            [("toolUseId", .str result.toolCallId),
              ("content", .arr [.obj [("text", .str result.text)]])])]
      [(Json.obj [("role", .str "user"), ("content", .arr (results.map block))]).print Json.spaced]
  | .envelope =>
    results.map fun result =>
      let text :=
        (Json.obj
          [("tool_call_id", .str result.toolCallId), ("tool_result", .str result.text)]).print
            Json.spaced
      (Json.obj
        [("role", .str "user"), ("content", .arr [.obj [("text", .str text)]])]).print Json.spaced

/-- The names under which protocols are registered, in lower case. -/
abbrev Registry : Type := Fields Provider

/-- The built-in protocols. -/
def builtIn : Registry :=
  [("openai/v1/chat/completions", .chatCompletions), ("bedrock/converse/claude", .toolBlocks),
    ("bedrock/converse/deepseek_r1", .envelope)]

/-- Registers a protocol under a name. -/
def register (registry : Registry) (name : String) (provider : Provider) : Registry :=
  Fields.put registry (lowered name) provider

/-- The protocol of a name, which is compared in lower case and without outer blanks. A blank name
names none; fails if no protocol has the name. -/
def find? (registry : Registry) (name : Option String) : Except Failure (Option Provider) :=
  match name with
  | none => .ok none
  | some name =>
    if trimmed name = "" then .ok none
    else
      match Fields.get? registry (lowered (trimmed name)) with
      | some provider => .ok (some provider)
      | none => .error ⟨.value, "LLM interface '" ++ name ++ "' is not supported."⟩

end Provider

end ReAct
