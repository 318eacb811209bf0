import ReAct.Json.Limits
import ReAct.Reply.NativeCall

/-!
# Replies beyond the limits of the interpreter

A reply is read in steps: paths are followed, the block of its text is decoded, and what is not a
text is written or shown as one. Wherever one of these steps exceeds a limit of the interpreter, the
reading of the reply fails; a text that is merely no JSON never makes it fail. Where the limits are
kept, the turn is that of `turnOf`, which knows none.

## Main definitions

* `overrun?`: the limit that is exceeded where a reply is read, if there is one
* `interpret`: the turn of a reply, as an interpreter with limits comes to it
-/

namespace ReAct.Reply

open Json (Limits Overrun)

variable (limits : Limits)

/-- What is exceeded by a decision object. The action is shown if it may be the name of a tool, and
its input is looked at if it is. -/
def objectOverrun? (members : Fields Json) (toolNames : List String) : Option Overrun :=
  let field (name : String) : Json := (Fields.get? members name).getD .null
  let action := field "action"
  limits.textOverrun? (field "thought") <|>
    if !(field "final_answer").isNull then limits.textOverrun? (field "final_answer")
    else if !action.truthy then none
    else
      limits.showOverrun? action <|>
        if (toolName? action.display toolNames).isNone then none
        else limits.textOverrun? (field "action_input")

/-- What is exceeded by a block, which is decoded. -/
def blockOverrun? (block : List Char) : Option Overrun :=
  limits.readOverrun? .allowed block

/-- What is exceeded by the text of a reply. Where its block is no object, only texts become
fields. -/
def freeTextOverrun? (text : String) (toolNames : List String) : Option Overrun :=
  match block? text.toList with
  | none => none
  | some block =>
    blockOverrun? limits block <|>
      match Json.looseValue? .allowed block with
      | some (.obj members) => objectOverrun? limits members toolNames
      | _ => none

/-- What is exceeded by a value that a model wrote. -/
def writtenOverrun? (toolNames : List String) : Json → Option Overrun
  | .obj members =>
    limits.writeOverrun? (.obj members) <|> objectOverrun? limits members toolNames
  | .null => none
  | v => limits.showOverrun? v <|> freeTextOverrun? limits v.display toolNames

/-- What is exceeded on the way to the written part of a reply. -/
def wayOverrun? (members : Fields Json) (paths : Paths) : Option Overrun :=
  paths.text.bind (limits.pathOverrun? (.obj members))

/-- What is exceeded by a reply whose decision is written in its text. -/
def proseOverrun? (members : Fields Json) (paths : Paths) (toolNames : List String) :
    Option Overrun :=
  wayOverrun? limits members paths <|>
    writtenOverrun? limits toolNames (writtenPart members paths)

/-- What is exceeded by the decoding that embedded paths need. -/
def embeddedOverrun? : Json → Option Overrun
  | .str s => (block? s.toList).bind (blockOverrun? limits)
  | _ => none

/-- What is exceeded where an optional path is followed out of a reply whose written part is
given. -/
def resolveOverrun? (members : Fields Json) (written : Json) : Option String → Option Overrun
  | none => none
  | some path =>
    match embeddedPath? path with
    | some inner =>
      embeddedOverrun? limits written <|> limits.pathOverrun? (embeddedObject written) inner
    | none => limits.pathOverrun? (.obj members) path

/-- What is exceeded where a part of a call becomes a text. -/
def nameOverrun? : Json → Option Overrun
  | .null => none
  | v => limits.showOverrun? v

/-- What is exceeded by a native call. -/
def callOverrun? (call : Json) (paths : Paths) : Option Overrun :=
  limits.pathOverrun? call paths.toolName <|> limits.pathOverrun? call paths.toolCallId <|>
    nameOverrun? limits (call.readPath paths.toolName) <|>
    limits.pathOverrun? call paths.toolInput <|>
    limits.textOverrun? (call.readPath paths.toolInput) <|>
    nameOverrun? limits (call.readPath paths.toolCallId) <|> limits.textOverrun? call

/-- What is exceeded by a reply without a native call. -/
def withoutCallOverrun? (members : Fields Json) (written : Json) (paths : Paths)
    (toolNames : List String) : Option Overrun :=
  match written with
  | .str s => if (blockText? s).isNone then none else proseOverrun? limits members paths toolNames
  | _ => proseOverrun? limits members paths toolNames

/-- What is exceeded by a reply in which there may be native calls. -/
def nativeOverrun? (members : Fields Json) (paths : Paths) (toolNames : List String) :
    Option Overrun :=
  let written := writtenPart members paths
  let calls := resolve members written paths.toolCalls
  let reason := resolve members written paths.finishReason
  wayOverrun? limits members paths <|> resolveOverrun? limits members written paths.toolCalls <|>
    resolveOverrun? limits members written paths.finishReason <|>
    if holdsCall calls && announcesCall paths reason then
      match firstCall calls with
      | .error _ => none
      | .ok call => callOverrun? limits call paths
    else withoutCallOverrun? limits members written paths toolNames

/-- What is exceeded where a reply is read. -/
def overrun? (reply : Reply) (paths : Paths) (toolNames : List String) : Option Overrun :=
  match paths.toolCalls with
  | none => proseOverrun? limits reply.members paths toolNames
  | some path =>
    if path = "" then proseOverrun? limits reply.members paths toolNames
    else nativeOverrun? limits reply.members paths toolNames

/-- The turn of a reply. Beyond the limits of the interpreter, the reading fails. -/
def interpret (reply : Reply) (paths : Paths) (toolNames : List String) : Except Failure Turn :=
  match overrun? limits reply paths toolNames with
  | some overrun => .error overrun.failure
  | none => turnOf reply paths toolNames

end ReAct.Reply
