import ReAct.Text.Blank
import ReAct.Text.Lowercase
import ReAct.Text.Search

/-!
# Recognising the name of a tool

Models write the name of a tool loosely. An exact name is taken as it is; otherwise a name that is
the same in lower case and without outer blanks; otherwise the longest name that occurs in the
action, in lower case, and of those of the same length the least.
-/

namespace ReAct.Reply

open ReAct.Text

/-- Whether one name is preferred to another when both occur in an action. -/
def preferredName (a b : String) : Bool :=
  b.length < a.length || (a.length == b.length && a < b)

/-- The preferred one of a list of names. -/
def preferred? : List String → Option String
  | [] => none
  | name :: rest =>
    match preferred? rest with
    | none => some name
    | some other => some (if preferredName other name then other else name)

/-- The tool that an action names. -/
def toolName? (action : String) (names : List String) : Option String :=
  if names.contains action then some action
  else
    let action := lower (trim action.toList)
    match names.find? fun name => lower name.toList == action with
    | some name => some name
    | none => preferred? (names.filter fun name => contains (lower name.toList) action)

end ReAct.Reply
