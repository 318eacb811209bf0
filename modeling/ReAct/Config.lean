import ReAct.Prompt.Defaults
import ReAct.Prompt.Section
import ReAct.Reply.Paths
import ReAct.Settings
import ReAct.Text.Lowercase

/-!
# Configuration of a session

A session is configured once, from the parameters of its agent and its request, and never changes
its configuration afterwards. Parameters are texts as a rule; what is not a text is read as far as
it makes sense and refused otherwise.
-/

namespace ReAct

open ReAct.Text Record

/-- The parameters of a request or an agent. -/
abbrev Parameters : Type := Fields Json

namespace Parameters

/-- A parameter that is present and not null. -/
def given? (params : Parameters) (name : String) : Option Json :=
  match Fields.get? params name with
  | some .null => none
  | found => found

/-- The failure of a value that is no number. -/
def notNumeric : Failure :=
  ⟨.type, "a number must be a text or a number"⟩

/-- The integer that a value stands for: numbers lose their fraction, texts are read. -/
def integerOf : Json → Except Failure Int
  | .int n => .ok n
  | .bool b => .ok (if b then 1 else 0)
  | .float .nan => .error ⟨.value, "cannot convert float NaN to integer"⟩
  | .float (.infinite _) => .error ⟨.overflow, "cannot convert float infinity to integer"⟩
  | .float x =>
    match x.truncate? with
    | some n => .ok n
    | none => .error notNumeric
  | .str s =>
    match readInteger? s.toList with
    | some n => .ok n
    | none =>
      .error ⟨.value,
        "invalid literal for int() with base 10: " ++ String.ofList (quoted s.toList)⟩
  | _ => .error notNumeric

/-- An integer parameter. -/
def integer (params : Parameters) (name : String) (default : Int) : Except Failure Int :=
  match Fields.get? params name with
  | none => .ok default
  | some v => integerOf v

/-- A parameter that is set by the word for truth, in any case and between blanks. -/
def flag (params : Parameters) (name : String) (default : Bool) : Bool :=
  match params.given? name with
  | none => default
  | some v => lower (trim v.display.toList) = ['t', 'r', 'u', 'e']

/-- A parameter that is the JSON text of a list; any other text is its only entry. -/
def texts (params : Parameters) (name : String) (default : List String) :
    Except Failure (List String) :=
  match params.given? name with
  | none => .ok default
  | some (.str s) =>
    match Json.read? s with
    | some (.arr items) => .ok (items.map Json.display)
    | some v => .ok [v.display]
    | none => .ok [s]
  | some _ => .error ⟨.type, "a list must be given as a JSON text"⟩

end Parameters

/-- The delimiters of the list sections of a prompt. -/
structure Prompt.Sections where
  tools : SectionFormat Json
  indices : SectionFormat Json
  examples : SectionFormat Json

namespace Prompt.Sections

/-- The delimiters that are in force unless parameters replace them. -/
def default : Sections where
  tools :=
    { opening := .str "You have access to the following tools defined in <tools>: \n<tools>\n"
      closing := .str "</tools>\n"
      itemOpening := .str "<tool>\n"
      itemClosing := .str "\n</tool>\n" }
  indices :=
    { opening := .str "You have access to the following indices defined in <indices>: \n<indices>\n"
      closing := .str "</indices>\n"
      itemOpening := .str "<index>\n"
      itemClosing := .str "\n</index>\n" }
  examples :=
    { opening := .str
        ("EXAMPLES\n--------\n" ++
          "You should follow and learn from examples defined in <examples>: \n<examples>\n")
      closing := .str "</examples>\n"
      itemOpening := .str "<example>\n"
      itemClosing := .str "\n</example>\n" }

/-- Replaces delimiters by the parameters under the four names of a section. They are not checked:
what is no text is displayed where a text is wanted. -/
def override (format : SectionFormat Json) (params : Parameters)
    (opening closing itemOpening itemClosing : String) : SectionFormat Json where
  opening := (params.given? opening).getD format.opening
  closing := (params.given? closing).getD format.closing
  itemOpening := (params.given? itemOpening).getD format.itemOpening
  itemClosing := (params.given? itemClosing).getD format.itemClosing

/-- The delimiters that parameters lead to. -/
def ofParameters (params : Parameters) : Sections where
  tools :=
    override default.tools params "tool_descriptions.prefix" "tool_descriptions.suffix"
      "tool_descriptions.tool.prefix" "tool_descriptions.tool.suffix"
  indices :=
    override default.indices params "indices.prefix" "indices.suffix" "indices.index.prefix"
      "indices.index.suffix"
  examples :=
    override default.examples params "examples.prefix" "examples.suffix" "examples.example.prefix"
      "examples.example.suffix"

/-- The delimiters as an object. -/
def toJson (sections : Sections) : Json :=
  .obj
    [("tools", sections.tools.toJson), ("indices", sections.indices.toJson),
      ("examples", sections.examples.toJson)]

end Prompt.Sections

/-- The configuration of a session. -/
structure Config where
  /-- The greatest number of model calls. -/
  maxIterations : Nat
  maxIterations_pos : 0 < maxIterations := by decide
  verbose : Bool
  traceDisabled : Bool
  /-- The greatest number of earlier turns that a prompt shows. -/
  messageHistoryLimit : Nat
  promptTemplate : String
  promptOpening : String
  promptClosing : String
  formatInstruction : String
  /-- How a tool call is entered on the scratchpad. -/
  toolResponse : String
  toolNamesSeparator : String
  sections : Prompt.Sections
  chatHistoryOpening : String
  chatQuestion : Option String
  chatResponse : Option String
  /-- How an observation is entered in the message list of a session without a provider. -/
  interactionToolResponse : Option String
  injectDatetime : Bool
  datetimeFormat : Option String
  systemPrompt : Option String
  stop : List String
  stopSequences : List String
  /-- The name of the provider's interface. -/
  interface : Option String
  /-- The paths chosen by the agent, and by the provider where the agent leaves one open. -/
  pathChoices : Reply.PathChoices

namespace Config

/-- The paths in force. -/
def paths (config : Config) : Reply.Paths :=
  config.pathChoices.complete

/-- A budget, which must be positive. -/
def checkBudget (n : Int) : Checked { n : Nat // 0 < n } :=
  if h : 1 ≤ n then .valid ⟨n.toNat, by omega⟩ else .issue .tooSmall

/-- A limit, which must not be negative. -/
def checkLimit (n : Int) : Checked Nat :=
  if 0 ≤ n then .valid n.toNat else .issue .tooSmall

/-- The parameters that choose paths, by the names of the paths. -/
def pathParameters (params : Parameters) : Fields Json :=
  [("llm_response_filter", "response_filter"), ("tool_calls.path", "tool_calls_path"),
      ("tool_calls.tool_name", "tool_name_path"), ("tool_calls.tool_input", "tool_input_path"),
      ("tool_calls.id_path", "tool_call_id_path"), ("llm_finish_reason_path", "finish_reason_path"),
      ("llm_finish_reason_tool_use", "finish_reason_tool_use")].filterMap
    fun (parameter, name) => (params.given? parameter).map fun v => (name, v)

/-- The configuration that parameters lead to; settings fill in for missing numbers and flags. -/
def ofParameters (settings : Settings) (params : Parameters) : Except Failure Config := do
  let maxIterations ← params.integer "max_iteration" settings.maxIterations
  let messageHistoryLimit ← params.integer "message_history_limit" settings.messageHistoryLimit
  let stop ← params.texts "stop" Prompt.Defaults.stop
  let stopSequences ← params.texts "stop_sequences" Prompt.Defaults.stopSequences
  let pathChoices ← (Reply.PathChoices.check (pathParameters params)).toExcept
  let plain (parameter name default : String) : Checked String :=
    match params.given? parameter with
    | none => .valid default
    | some v => (Record.text v).under name
  let maybe (parameter name : String) : Checked (Option String) :=
    match params.given? parameter with
    | none => .valid none
    | some v => ((Record.text v).under name).map some
  let build (budget : { n : Nat // 0 < n }) (limit : Nat)
      (template opening closing instruction toolResponse separator chatOpening : String)
      (chatQuestion chatResponse interaction datetimeFormat systemPrompt interface :
        Option String) : Config :=
    { maxIterations := budget.val
      maxIterations_pos := budget.property
      verbose := params.flag "verbose" settings.verbose
      traceDisabled := params.flag "disable_trace" settings.traceDisabled
      messageHistoryLimit := limit
      promptTemplate := template
      promptOpening := opening
      promptClosing := closing
      formatInstruction := instruction
      toolResponse := toolResponse
      toolNamesSeparator := separator
      sections := Prompt.Sections.ofParameters params
      chatHistoryOpening := chatOpening
      chatQuestion := chatQuestion
      chatResponse := chatResponse
      interactionToolResponse := interaction
      injectDatetime := params.flag "inject_datetime" false
      datetimeFormat := datetimeFormat
      systemPrompt := systemPrompt
      stop := stop
      stopSequences := stopSequences
      interface := interface
      pathChoices := pathChoices }
  (build <$> (checkBudget maxIterations).under "max_iterations"
    <*> (checkLimit messageHistoryLimit).under "message_history_limit"
    <*> plain "prompt" "prompt_template" Prompt.Defaults.template
    <*> plain "prompt.prefix" "prompt_prefix" Prompt.Defaults.opening
    <*> plain "prompt.suffix" "prompt_suffix" Prompt.Defaults.closing
    <*> plain "prompt.format_instruction" "response_format_instruction"
      Prompt.Defaults.formatInstruction
    <*> plain "tool_response" "tool_response_template" Prompt.Defaults.toolResponse
    <*> plain "tool_names.separator" "tool_names_separator" ", "
    <*> plain "prompt.chat_history_prefix" "chat_history_prefix" Prompt.Defaults.chatHistoryOpening
    <*> maybe "chat_history_template.user_question" "chat_history_question_template"
    <*> maybe "chat_history_template.ai_response" "chat_history_response_template"
    <*> maybe "interaction_template.tool_response" "interaction_tool_response_template"
    <*> maybe "datetime_format" "datetime_format"
    <*> maybe "system_prompt" "system_prompt"
    <*> maybe "_llm_interface" "llm_interface").toExcept

/-- The configuration of a session whose parameters choose nothing. -/
def initial : Config where
  maxIterations := 10
  verbose := false
  traceDisabled := false
  messageHistoryLimit := 10
  promptTemplate := Prompt.Defaults.template
  promptOpening := Prompt.Defaults.opening
  promptClosing := Prompt.Defaults.closing
  formatInstruction := Prompt.Defaults.formatInstruction
  toolResponse := Prompt.Defaults.toolResponse
  toolNamesSeparator := ", "
  sections := .default
  chatHistoryOpening := Prompt.Defaults.chatHistoryOpening
  chatQuestion := none
  chatResponse := none
  interactionToolResponse := none
  injectDatetime := false
  datetimeFormat := none
  systemPrompt := none
  stop := Prompt.Defaults.stop
  stopSequences := Prompt.Defaults.stopSequences
  interface := none
  pathChoices := {}

example : ofParameters {} [] = .ok initial := rfl

/-- The configuration as an object. -/
def toJson (config : Config) : Json :=
  .obj
    [("max_iterations", .int config.maxIterations), ("verbose", .bool config.verbose),
      ("trace_disabled", .bool config.traceDisabled),
      ("message_history_limit", .int config.messageHistoryLimit),
      ("prompt_template", .str config.promptTemplate), ("prompt_prefix", .str config.promptOpening),
      ("prompt_suffix", .str config.promptClosing),
      ("response_format_instruction", .str config.formatInstruction),
      ("tool_response_template", .str config.toolResponse),
      ("tool_names_separator", .str config.toolNamesSeparator),
      ("sections", config.sections.toJson), ("chat_history_prefix", .str config.chatHistoryOpening),
      ("chat_history_question_template", Json.ofText? config.chatQuestion),
      ("chat_history_response_template", Json.ofText? config.chatResponse),
      ("interaction_tool_response_template", Json.ofText? config.interactionToolResponse),
      ("inject_datetime", .bool config.injectDatetime),
      ("datetime_format", Json.ofText? config.datetimeFormat),
      ("system_prompt", Json.ofText? config.systemPrompt), ("stop", Json.ofTexts config.stop),
      ("stop_sequences", Json.ofTexts config.stopSequences),
      ("llm_interface", Json.ofText? config.interface), ("parser", config.paths.toJson)]

end Config

end ReAct
