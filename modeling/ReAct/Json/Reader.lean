import ReAct.Json.Token

/-!
# Reading JSON

Tokens are assembled by a second machine, which keeps the open containers on a stack. A text denotes
a value when its tokens lead from the start to a delivered value and nothing follows. Of members
with one name the last value counts, at the place of the first.

The reader differs from that of the interpreter in two ways. It has no limits, where the other one
gives up on long integers and deep nesting; and it refuses halves of surrogate pairs that stand
alone, which the other one keeps in a text. `ReAct.Json.Limits` describes both.
-/

namespace ReAct.Json

/-- An open container that waits for a value. -/
inductive Frame where
  /-- An array with its items so far, latest first. -/
  | items (read : List Json)
  /-- An object with its members so far and the name of the value that is due. -/
  | member (read : Fields Json) (name : String)

/-- What is due next. -/
inductive Due where
  /-- A value; `fresh` if the array on top of the stack may still be closed at once. -/
  | value (fresh : Bool) (stack : List Frame)
  /-- A name; `fresh` if the object may still be closed at once. -/
  | name (fresh : Bool) (read : Fields Json) (stack : List Frame)
  /-- The colon after a name. -/
  | colon (read : Fields Json) (name : String) (stack : List Frame)
  /-- A comma or the end of an array. -/
  | afterItem (read : List Json) (stack : List Frame)
  /-- A comma or the end of an object. -/
  | afterMember (read : Fields Json) (stack : List Frame)
  /-- Nothing: the value is complete. -/
  | nothing (value : Json)
  /-- Nothing that could come makes this a value. -/
  | fault

/-- Hands a complete value to the container that waits for it. -/
def deliver (v : Json) : List Frame → Due
  | [] => .nothing v
  | .items read :: stack => .afterItem (v :: read) stack
  | .member read name :: stack => .afterMember (read.put name v) stack

/-- One token. -/
def Due.step : Due → Token → Due
  | .value _ stack, .scalar v => deliver v stack
  | .value _ stack, .text s => deliver (.str s) stack
  | .value _ stack, .openBrace => .name true [] stack
  | .value _ stack, .openBracket => .value true (.items [] :: stack)
  | .value true (.items [] :: stack), .closeBracket => deliver (.arr []) stack
  | .name _ read stack, .text s => .colon read s stack
  | .name true read stack, .closeBrace => deliver (.obj read) stack
  | .colon read key stack, .colon => .value false (.member read key :: stack)
  | .afterItem read stack, .comma => .value false (.items read :: stack)
  | .afterItem read stack, .closeBracket => deliver (.arr read.reverse) stack
  | .afterMember read stack, .comma => .name false read stack
  | .afterMember read stack, .closeBrace => deliver (.obj read) stack
  | _, _ => .fault

/-- The value that is complete. -/
def Due.value? : Due → Option Json
  | .nothing v => some v
  | _ => none

/-- The value of a list of tokens. -/
def ofTokens? (tokens : List Token) : Option Json :=
  (tokens.foldl Due.step (.value false [])).value?

/-- The value that a text denotes, whatever its size, if it is a value of texts that hold whole
characters. -/
def ofChars? (controls : Controls) (s : List Char) : Option Json :=
  (tokens? controls s).bind ofTokens?

/-- The value of a text in which control characters are escaped. -/
def read? (s : String) : Option Json :=
  ofChars? .refused s.toList

/-- The value of a text in which control characters may stand as themselves. -/
def readLenient? (s : String) : Option Json :=
  ofChars? .allowed s.toList

end ReAct.Json
