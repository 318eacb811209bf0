import ReAct.Failure
import ReAct.Reply.Turn

/-!
# Native tool calls

Some providers return the tool calls of a model as records of their own. Paths lead to the records
and to the reason for which the model stopped. A path that starts with the opening of embedded paths
leads into the JSON block of the model's text instead of the reply.

Of several calls the first is taken. Where there is none, or the reason for stopping does not
announce one, the reply is read like any other, except that a text without a block is a proper
answer.
-/

namespace ReAct.Reply

open ReAct.Text

/-- What opens the paths into the block of the model's text. -/
def embeddedOpening : List Char := "_llm_response.".toList

/-- The rest of a path that leads into the block of the model's text. -/
def embeddedPath? (path : String) : Option String :=
  (after? embeddedOpening path.toList).map String.ofList

/-- The object in the block of a text; an empty one if there is none. -/
def embeddedObject : Json → Json
  | .str s =>
    match blockText? s with
    | none => .obj []
    | some block => (Json.readLenient? block).getD (.obj [])
  | _ => .null

/-- Reads an optional path out of a reply whose written part is given. -/
def resolve (members : Fields Json) (written : Json) : Option String → Json
  | none => .null
  | some path =>
    match embeddedPath? path with
    | some inner => (embeddedObject written).readPath inner
    | none => (Json.obj members).readPath path

/-- Whether an optional path leads into the block of the model's text. -/
def isEmbedded : Option String → Bool
  | none => false
  | some path => (embeddedPath? path).isSome

/-- Whether a value holds a tool call: a record always does, everything else unless it is empty. -/
def holdsCall : Json → Bool
  | .obj _ => true
  | v => v.truthy

/-- The first of the tool calls that a value lists; a record that stands alone is a call. Fails if
the value is no list at all. -/
def firstCall : Json → Except Failure Json
  | .arr items => .ok (items.head?.getD .null)
  | .str s => .ok (.str (String.ofList (s.toList.take 1)))
  | .obj members => .ok (.obj members)
  | _ => .error ⟨.type, "tool calls must be listed"⟩

/-- A value as the name or identifier of a call. -/
def nameText : Json → Option String
  | .null => none
  | v => some v.display

/-- The turn of a native call. The text beside the call is the thought, unless the call was found in
that text. -/
def turnOfCall (call written : Json) (embedded : Bool) (paths : Paths) : Turn where
  thought :=
    match written with
    | .str s => some (if embedded then "" else s)
    | _ => some ""
  action := nameText (call.readPath paths.toolName)
  actionInput := fieldText (call.readPath paths.toolInput)
  toolCallId := nameText (call.readPath paths.toolCallId)
  source := fieldText call

/-- Whether a reason for stopping announces a tool call. -/
def announcesCall (paths : Paths) (reason : Json) : Bool :=
  match paths.toolUseReason with
  | none => true
  | some expected => reason.isText expected

/-- The turn of a reply without a native call. -/
def turnWithoutCall (members : Fields Json) (written : Json) (paths : Paths)
    (toolNames : List String) : Turn :=
  match written with
  | .str s =>
    if (blockText? s).isNone then
      { thought := some "", finalAnswer := some s, source := some s }
    else turnOfProse members paths toolNames
  | _ => turnOfProse members paths toolNames

/-- The turn of a reply in which there may be native calls. -/
def turnOfNative (members : Fields Json) (paths : Paths) (toolNames : List String) :
    Except Failure Turn :=
  let written := writtenPart members paths
  let calls := resolve members written paths.toolCalls
  let reason := resolve members written paths.finishReason
  if holdsCall calls && announcesCall paths reason then
    (firstCall calls).map fun call =>
      turnOfCall call written (isEmbedded paths.toolCalls || isEmbedded paths.finishReason) paths
  else .ok (turnWithoutCall members written paths toolNames)

/-- The turn of a reply, within the limits of the interpreter. Native calls are looked for where a
path to them is given. -/
def turnOf (reply : Reply) (paths : Paths) (toolNames : List String) : Except Failure Turn :=
  match paths.toolCalls with
  | none => .ok (turnOfProse reply.members paths toolNames)
  | some path =>
    if path = "" then .ok (turnOfProse reply.members paths toolNames)
    else turnOfNative reply.members paths toolNames

end ReAct.Reply
