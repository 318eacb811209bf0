import ReAct.Json.Basic
import ReAct.Decimal.Layout
import ReAct.Text.Quoted

/-!
# JSON texts

A value is written on one line. What varies is the text between items, the text after a name, and
whether characters beyond ASCII are written as themselves or by the numbers of their 16-bit units.
-/

namespace ReAct.Json

open ReAct.Text

/-- The decisions of a written form. -/
structure Layout where
  /-- What stands between two items or members. -/
  betweenItems : List Char := [',', ' ']
  /-- What stands between a name and its value. -/
  afterName : List Char := [':', ' ']
  /-- Whether every character that is not printable ASCII is escaped. -/
  asciiOnly : Bool := false

/-- One blank after every comma and colon; every character as itself. -/
def spaced : Layout := {}

/-- One blank after every comma and colon; ASCII characters only. -/
def spacedAscii : Layout := { asciiOnly := true }

/-- No blanks; every character as itself. -/
def compact : Layout := { betweenItems := [','], afterName := [':'] }

/-- The escape of one 16-bit unit. -/
def unitEscape (n : Nat) : List Char :=
  '\\' :: 'u' :: hexDigits 4 n

/-- The escape of a character by its 16-bit units: a surrogate pair above `U+FFFF`. -/
def unitEscapes (c : Char) : List Char :=
  if c.toNat < 0x10000 then unitEscape c.toNat
  else
    let n := c.toNat - 0x10000
    unitEscape (0xD800 + n / 0x400) ++ unitEscape (0xDC00 + n % 0x400)

/-- How a string literal writes one character. -/
def escaped (asciiOnly : Bool) (c : Char) : List Char :=
  if c = '"' then ['\\', '"']
  else if c = '\\' then ['\\', '\\']
  else if c = '\n' then ['\\', 'n']
  else if c = '\r' then ['\\', 'r']
  else if c = '\t' then ['\\', 't']
  else if c.toNat = 0x08 then ['\\', 'b']
  else if c.toNat = 0x0C then ['\\', 'f']
  else if c.toNat < 0x20 then unitEscape c.toNat
  else if asciiOnly && 0x7F ≤ c.toNat then unitEscapes c
  else [c]

/-- The inside of a string literal. -/
def body (asciiOnly : Bool) (s : List Char) : List Char :=
  s.flatMap (escaped asciiOnly)

/-- A string literal. -/
def literal (asciiOnly : Bool) (s : List Char) : List Char :=
  '"' :: body asciiOnly s ++ ['"']

mutual

/-- The characters of a value's text. -/
def chars (layout : Layout) : Json → List Char
  | .null => ['n', 'u', 'l', 'l']
  | .bool true => ['t', 'r', 'u', 'e']
  | .bool false => ['f', 'a', 'l', 's', 'e']
  | .int n => integer n
  | .float x => Decimal.text Decimal.jsonLayout x
  | .str s => literal layout.asciiOnly s.toList
  | .arr items => '[' :: itemChars layout items ++ [']']
  | .obj members => '\x7b' :: memberChars layout members ++ ['\x7d']

/-- The items of an array with what stands between them. -/
def itemChars (layout : Layout) : List Json → List Char
  | [] => []
  | [x] => chars layout x
  | x :: y :: rest => chars layout x ++ layout.betweenItems ++ itemChars layout (y :: rest)

/-- The members of an object with what stands between them. -/
def memberChars (layout : Layout) : List (String × Json) → List Char
  | [] => []
  | [(name, x)] => literal layout.asciiOnly name.toList ++ layout.afterName ++ chars layout x
  | (name, x) :: y :: rest =>
    literal layout.asciiOnly name.toList ++ layout.afterName ++ chars layout x ++
      layout.betweenItems ++ memberChars layout (y :: rest)

end

/-- The text of a value. -/
def print (layout : Layout) (v : Json) : String :=
  String.ofList (chars layout v)

/-- A value as the output of a tool: nothing for null, a text as it is, everything else as its JSON
text. -/
def output : Json → String
  | .null => ""
  | .str s => s
  | v => v.print spaced

/-- The outputs of the members of a table, without those that are null. -/
def outputs (fields : Fields Json) : Fields String :=
  (fields.filter fun entry => !entry.2.isNull).map fun entry => (entry.1, entry.2.output)

/-- The inside of the string literal of a text, for splicing into a literal of a template. -/
def literalBody (asciiOnly : Bool) (s : String) : String :=
  String.ofList (body asciiOnly s.toList)

end ReAct.Json
