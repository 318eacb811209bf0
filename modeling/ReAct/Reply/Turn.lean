import ReAct.Json.Display
import ReAct.Json.Path
import ReAct.Json.Printer
import ReAct.Json.Reader
import ReAct.Reply.Block
import ReAct.Reply.Paths
import ReAct.Reply.Salvage
import ReAct.Reply.ToolName

/-!
# Turns

A turn is what a model decides in one reply: an answer, or the call of a tool. Two kinds of replies
are understood. In the first the model writes a JSON object with a thought and either an action and
its input or a final answer, somewhere in its text; prose without such an object is an answer. In
the second the provider returns records of tool calls, which paths lead to.

What cannot be understood is taken for an answer and marked as degraded.
-/

namespace ReAct

/-- A reply of a model: a bare text, or an object. -/
inductive Reply where
  | text (s : String)
  | object (members : Fields Json)

namespace Reply

open Record

/-- The object that a reply amounts to; a bare text is its response. -/
def members : Reply → Fields Json
  | .text s => [("response", .str s)]
  | .object members => members

/-- A reply as a value. -/
def toJson : Reply → Json
  | .text s => .str s
  | .object members => .obj members

/-- What a model decides in one reply. -/
structure Turn where
  thought : Option String := none
  /-- The name of the tool to call. -/
  action : Option String := none
  actionInput : Option String := none
  toolCallId : Option String := none
  finalAnswer : Option String := none
  /-- The part of the reply that the decision was read from. -/
  source : Option String := none
  /-- Whether an answer was made of a reply that could not be understood. -/
  degraded : Bool := false

namespace Turn

/-- Whether the model has answered. -/
def isFinal (turn : Turn) : Bool :=
  turn.finalAnswer.isSome

/-- Reads a turn from an object. -/
def check : Check Turn :=
  record fun members =>
    Turn.mk <$> defaulted members "thought" none (optional Record.text)
      <*> defaulted members "action" none (optional Record.text)
      <*> defaulted members "action_input" none (optional Record.text)
      <*> defaulted members "tool_call_id" none (optional Record.text)
      <*> defaulted members "final_answer" none (optional Record.text)
      <*> defaulted members "thought_response" none (optional Record.text)
      <*> defaulted members "parse_degraded" false flag

/-- The turn as an object. -/
def toJson (turn : Turn) : Json :=
  .obj
    [("thought", Json.ofText? turn.thought), ("action", Json.ofText? turn.action),
      ("action_input", Json.ofText? turn.actionInput),
      ("tool_call_id", Json.ofText? turn.toolCallId),
      ("final_answer", Json.ofText? turn.finalAnswer),
      ("thought_response", Json.ofText? turn.source), ("parse_degraded", .bool turn.degraded)]

end Turn

/-- A value as a field of a decision: null is absent, a text stands for itself, everything else for
its compact JSON text. -/
def fieldText : Json → Option String
  | .null => none
  | .str s => some s
  | v => some (v.print Json.compact)

/-- The turn of an answer that was not understood. -/
def degradedAnswer (answer : String) : Turn :=
  { finalAnswer := some answer, degraded := true }

/-- The turn of a decision object, which was written as `source`. An answer counts before an action;
an object with neither a usable action nor an answer is itself the answer. -/
def turnOfObject (members : Fields Json) (source : String) (toolNames : List String) : Turn :=
  let field (name : String) : Json := (Fields.get? members name).getD .null
  let thought := fieldText (field "thought")
  match fieldText (field "final_answer") with
  | some answer => { thought := thought, finalAnswer := some answer, source := some source }
  | none =>
    let action := field "action"
    match if action.truthy then toolName? action.display toolNames else none with
    | some name =>
      { thought := thought
        action := some name
        actionInput := fieldText (field "action_input")
        source := some source }
    | none =>
      { thought := thought, finalAnswer := some source, source := some source, degraded := true }

/-- The object that a text denotes. -/
def objectOf? (s : String) : Option (Fields Json) :=
  match Json.readLenient? s with
  | some (.obj members) => some members
  | _ => none

/-- The turn of a text that has no readable object in it: what can be salvaged from `source`, or the
whole text as an answer. -/
def turnOfBrokenText (text source : String) (toolNames : List String) : Turn :=
  let fields := Salvage.fields source.toList
  if fields.has "action" || fields.has "final_answer" then
    turnOfObject (fields.mapValues .str) source toolNames
  else degradedAnswer text

/-- The turn of a text. -/
def turnOfText (text : String) (toolNames : List String) : Turn :=
  match blockText? text with
  | none => turnOfBrokenText text text toolNames
  | some block =>
    match objectOf? block with
    | some members => turnOfObject members block toolNames
    | none => turnOfBrokenText text block toolNames

/-- The part of a reply that the model wrote: where the paths lead, else its response, else the
whole reply. -/
def writtenPart (members : Fields Json) (paths : Paths) : Json :=
  match paths.text with
  | some path =>
    if path = "" then (Fields.get? members "response").getD (.obj members)
    else (Json.obj members).readPath path
  | none => (Fields.get? members "response").getD (.obj members)

/-- The turn of a value that a model wrote. -/
def turnOfWritten (toolNames : List String) : Json → Turn
  | .obj members => turnOfObject members ((Json.obj members).print Json.compact) toolNames
  | .null => degradedAnswer ""
  | v => turnOfText v.display toolNames

/-- The turn of a reply whose decision is written in its text. -/
def turnOfProse (members : Fields Json) (paths : Paths) (toolNames : List String) : Turn :=
  turnOfWritten toolNames (writtenPart members paths)

end Reply

end ReAct
