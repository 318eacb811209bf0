import ReAct.Config
import ReAct.Moment.Format
import ReAct.Template
import ReAct.Tool.Spec

/-!
# Prompt assembly

A prompt is made once per session. Its sections are rendered first, each to a text that is empty
when there is nothing to show; then the template is filled in one pass, so that rendered text is
never examined for placeholders. The fragments that frame a prompt are templates themselves and are
filled before. The one placeholder that is left is the scratchpad, which the session fills on every
model call.
-/

namespace ReAct.Prompt

/-- The key of the scratchpad. -/
def scratchpadKey : String := "scratchpad"

/-- The keys that a prompt renders itself, whatever the parameters say. -/
def sectionKeys : List String :=
  ["prompt.prefix", "prompt.suffix", "prompt.format_instruction", "tool_descriptions", "tool_names",
    "indices", "examples", "chat_history", "context", scratchpadKey]

/-- The parameters that fill placeholders of their own. -/
def plainValues (params : Parameters) : Fields Json :=
  params.filter fun entry => !sectionKeys.contains entry.1

/-- The line that describes a tool to the model. -/
def toolLine (tool : Tool.Entry) : Option String :=
  match tool.face.description with
  | none => none
  | some text => if text = "" then none else some (tool.name ++ ": " ++ text)

/-- The failure of a tool that cannot be described. -/
def undescribed (name : String) : Failure :=
  ⟨.tool, "Tool '" ++ name ++ "' is not registered or has no description."⟩

/-- The lines of the named tools; fails at the first name without a described tool. -/
def toolLines (tools : List Tool.Entry) : (names : List String) → Except Failure (List String)
  | [] => .ok []
  | name :: rest =>
    match (tools.find? fun tool => tool.name == name).bind toolLine with
    | none => .error (undescribed name)
    | some line => (toolLines tools rest).map (line :: ·)

/-- Fills a template of a prompt: what has no value vanishes, except the scratchpad. -/
def fillTemplate (values : Fields Json) (template : String) : String :=
  Template.fill Template.parametersOpening (Json.outputs values) (.vanishes [scratchpadKey])
    template

/-- A parameter that is left out when it is empty. -/
def orEmpty (params : Parameters) (name : String) : Json :=
  match params.given? name with
  | some v => if v.truthy then v else .str ""
  | none => .str ""

/-- The delimiters of a section as texts. -/
def shown (format : SectionFormat Json) : SectionFormat :=
  format.map Json.display

/-- The prompt of a session, with the placeholders of the scratchpad left in it. -/
def assemble (params : Parameters) (tools : List Tool.Entry) (names : List String)
    (config : Config) : Except Failure String := do
  let lines ← toolLines tools names
  let values := plainValues params
  let joined := Json.str (config.toolNamesSeparator.intercalate names)
  let fragment (template : String) : Json :=
    .str (fillTemplate (Fields.put values "tool_names" joined) template)
  let parameter (name : String) : Json := (Fields.get? params name).getD .null
  let sections : Fields Json :=
    [("prompt.prefix", fragment config.promptOpening),
      ("prompt.suffix", fragment config.promptClosing),
      ("prompt.format_instruction", fragment config.formatInstruction),
      ("tool_descriptions", .str ((shown config.sections.tools).wrap lines)),
      ("tool_names", joined),
      ("indices", .str (listSection (shown config.sections.indices) (parameter "indices"))),
      ("examples", .str (listSection (shown config.sections.examples) (parameter "examples"))),
      ("chat_history", orEmpty params "chat_history"),
      ("context", orEmpty params "context")]
  return fillTemplate (Fields.merge values sections) config.promptTemplate

/-- What is exceeded where the sections of a prompt are rendered. -/
def sectionsOverrun? (limits : Json.Limits) (params : Parameters) : Option Json.Overrun :=
  let parameter (name : String) : Json := (Fields.get? params name).getD .null
  itemsOverrun? limits (parameter "indices") <|> itemsOverrun? limits (parameter "examples")

/-- The prompt of a session, if its sections keep within the limits of the interpreter. -/
def assembleWithin (limits : Json.Limits) (params : Parameters) (tools : List Tool.Entry)
    (names : List String) (config : Config) : Except Failure String :=
  match assemble params tools names config, sectionsOverrun? limits params with
  | .ok _, some overrun => .error overrun.failure
  | assembled, _ => assembled

/-- Fills the scratchpad of an assembled prompt. -/
def renderScratchpad (prompt scratchpad : String) : String :=
  Template.fill Template.parametersOpening [(scratchpadKey, scratchpad)] .stays prompt

/-- A configuration that tells the model the time, if it asks for that: in the system prompt if
there is one, else at the end of the prompt's opening. -/
def injectMoment (config : Config) (now : Moment) : Config :=
  if !config.injectDatetime then config
  else
    let pattern :=
      match config.datetimeFormat with
      | none => ""
      | some pattern => pattern
    let pattern := if pattern = "" then "%Y-%m-%d %H:%M:%S %Z" else pattern
    let stamp := "\n\nCurrent date and time: " ++ now.format pattern
    match config.systemPrompt with
    | some text => { config with systemPrompt := some (text ++ stamp) }
    | none => { config with promptOpening := config.promptOpening ++ stamp }

end ReAct.Prompt
