import ReAct.Json.Basic
import ReAct.Decimal.Layout
import ReAct.Text.Quoted

/-!
# Displayed values

How a value is shown where a plain text is wanted: a text as it is, everything else in a notation of
its own with the words `None`, `True` and `False` and with inner texts in quotes.
-/

namespace ReAct.Json

open ReAct.Text

mutual

/-- The displayed form of a value that stands inside another one: texts are quoted. -/
def shown : Json → List Char
  | .null => ['N', 'o', 'n', 'e']
  | .bool true => ['T', 'r', 'u', 'e']
  | .bool false => ['F', 'a', 'l', 's', 'e']
  | .int n => integer n
  | .float x => Decimal.text Decimal.displayLayout x
  | .str s => quoted s.toList
  | .arr items => '[' :: shownItems items ++ [']']
  | .obj members => '\x7b' :: shownMembers members ++ ['\x7d']

/-- The items of a displayed list. -/
def shownItems : List Json → List Char
  | [] => []
  | [x] => shown x
  | x :: y :: rest => shown x ++ ',' :: ' ' :: shownItems (y :: rest)

/-- The members of a displayed object. -/
def shownMembers : List (String × Json) → List Char
  | [] => []
  | [(name, x)] => quoted name.toList ++ ':' :: ' ' :: shown x
  | (name, x) :: y :: rest =>
    quoted name.toList ++ ':' :: ' ' :: shown x ++ ',' :: ' ' :: shownMembers (y :: rest)

end

/-- The displayed form of a value on its own: a text stands for itself. -/
def display : Json → String
  | .str s => s
  | v => String.ofList (shown v)

end ReAct.Json
