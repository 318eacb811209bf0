import ReAct.Json.Basic
import ReAct.Decimal.Layout

/-!
# JSON tokens

A text is cut into tokens by a machine that takes one character at a time, so that scanning a text
is a fold and scanning a concatenation is one fold after the other. Between tokens there may be
blanks. A string literal is followed to its closing quote, its escapes decoded on the way. A maximal
run of other characters is a word, which must be a number or one of the named values.

Escapes of surrogates denote a character only in pairs. Half of a pair is no character, so a lone
one is refused here, where other readers of JSON let it stand in a text.
-/

namespace ReAct.Json

/-- How a string literal may hold the characters below `U+0020`. -/
inductive Controls where
  /-- Only in escaped form. -/
  | refused
  /-- As themselves, too. -/
  | allowed
  deriving DecidableEq

/-- A token. -/
inductive Token where
  | openBrace
  | closeBrace
  | openBracket
  | closeBracket
  | colon
  | comma
  | text (value : String)
  | scalar (value : Json)

/-- Where the scanner stands inside a string literal. -/
inductive Escape where
  /-- At an ordinary position. -/
  | plain
  /-- After a back-slash. -/
  | backslash
  /-- Inside the four digits of a numbered escape; `left` digits are still to come. -/
  | digits (left : Nat) (value : Nat)
  /-- After the first half of a surrogate pair. -/
  | pair (high : Nat)
  /-- After the back-slash that must follow it. -/
  | pairBackslash (high : Nat)
  /-- Inside the digits of its second half. -/
  | pairDigits (high : Nat) (left : Nat) (value : Nat)

/-- Where the scanner stands. -/
inductive Mode where
  /-- Between tokens. -/
  | between
  /-- Inside a word, whose characters so far are `word` in reverse. -/
  | word (word : List Char)
  /-- Inside a string literal that so far denotes `value` in reverse. -/
  | inText (value : List Char) (escape : Escape)
  /-- After a fault. -/
  | failed

/-- The state of the scanner: the tokens so far, latest first, and where it stands. -/
structure Scan where
  tokens : List Token
  mode : Mode

/-- The blanks between tokens. -/
def isSpace (c : Char) : Bool :=
  c = ' ' || c = '\n' || c = '\r' || c = '\t'

/-- The token of a punctuation character. -/
def punctuation? (c : Char) : Option Token :=
  if c = '\x7b' then some .openBrace
  else if c = '\x7d' then some .closeBrace
  else if c = '[' then some .openBracket
  else if c = ']' then some .closeBracket
  else if c = ':' then some .colon
  else if c = ',' then some .comma
  else none

/-- The value that a word denotes: a named value, a number, or one of the values that are no finite
number. -/
def wordValue? (word : List Char) : Option Json :=
  if word = ['n', 'u', 'l', 'l'] then some .null
  else if word = ['t', 'r', 'u', 'e'] then some (.bool true)
  else if word = ['f', 'a', 'l', 's', 'e'] then some (.bool false)
  else if word = ['N', 'a', 'N'] then some (.float .nan)
  else if word = ['I', 'n', 'f', 'i', 'n', 'i', 't', 'y'] then some (.float (.infinite false))
  else if word = ['-', 'I', 'n', 'f', 'i', 'n', 'i', 't', 'y'] then some (.float (.infinite true))
  else
    (Decimal.readNumber? word).map fun n =>
      match n with
      | .int value => .int value
      | .float value => .float value

/-- The value of a hexadecimal digit of either case. -/
def hexValue? (c : Char) : Option Nat :=
  if '0' ≤ c ∧ c ≤ '9' then some (c.toNat - '0'.toNat)
  else if 'a' ≤ c ∧ c ≤ 'f' then some (c.toNat - 'a'.toNat + 10)
  else if 'A' ≤ c ∧ c ≤ 'F' then some (c.toNat - 'A'.toNat + 10)
  else none

/-- The character of a short escape. -/
def shortEscape? (c : Char) : Option Char :=
  if c = '"' ∨ c = '\\' ∨ c = '/' then some c
  else if c = 'n' then some '\n'
  else if c = 'r' then some '\r'
  else if c = 't' then some '\t'
  else if c = 'b' then some '\x08'
  else if c = 'f' then some '\x0c'
  else none

/-- Goes on after the last digit of a numbered escape. -/
def numbered (value : List Char) (n : Nat) : Mode :=
  if 0xD800 ≤ n ∧ n < 0xDC00 then .inText value (.pair n)
  else if 0xDC00 ≤ n ∧ n < 0xE000 then .failed
  else .inText (Char.ofNat n :: value) .plain

/-- Goes on after the last digit of the second half of a surrogate pair. -/
def paired (value : List Char) (high low : Nat) : Mode :=
  if 0xDC00 ≤ low ∧ low < 0xE000 then
    .inText (Char.ofNat (0x10000 + (high - 0xD800) * 0x400 + (low - 0xDC00)) :: value) .plain
  else .failed

/-- One character of a string literal, short of the closing quote. -/
def stepText (controls : Controls) (value : List Char) : Escape → Char → Mode
  | .plain, c =>
    if c = '\\' then .inText value .backslash
    else if c.toNat < 0x20 ∧ controls = .refused then .failed
    else .inText (c :: value) .plain
  | .backslash, c =>
    if c = 'u' then .inText value (.digits 4 0)
    else
      match shortEscape? c with
      | some d => .inText (d :: value) .plain
      | none => .failed
  | .digits left n, c =>
    match hexValue? c with
    | some d =>
      if left ≤ 1 then numbered value (n * 16 + d)
      else .inText value (.digits (left - 1) (n * 16 + d))
    | none => .failed
  | .pair high, c => if c = '\\' then .inText value (.pairBackslash high) else .failed
  | .pairBackslash high, c => if c = 'u' then .inText value (.pairDigits high 4 0) else .failed
  | .pairDigits high left n, c =>
    match hexValue? c with
    | some d =>
      if left ≤ 1 then paired value high (n * 16 + d)
      else .inText value (.pairDigits high (left - 1) (n * 16 + d))
    | none => .failed

/-- One character between tokens. -/
def stepBetween (tokens : List Token) (c : Char) : Scan :=
  if isSpace c then ⟨tokens, .between⟩
  else if c = '"' then ⟨tokens, .inText [] .plain⟩
  else
    match punctuation? c with
    | some token => ⟨token :: tokens, .between⟩
    | none => ⟨tokens, .word [c]⟩

/-- Whether a character ends a word. -/
def endsWord (c : Char) : Bool :=
  isSpace c || c = '"' || (punctuation? c).isSome

/-- One character of a text. -/
def Scan.step (controls : Controls) (s : Scan) (c : Char) : Scan :=
  match s.mode with
  | .between => stepBetween s.tokens c
  | .word word =>
    if endsWord c then
      match wordValue? word.reverse with
      | some v => stepBetween (.scalar v :: s.tokens) c
      | none => ⟨s.tokens, .failed⟩
    else ⟨s.tokens, .word (c :: word)⟩
  | .inText value .plain =>
    if c = '"' then ⟨.text (String.ofList value.reverse) :: s.tokens, .between⟩
    else ⟨s.tokens, stepText controls value .plain c⟩
  | .inText value escape => ⟨s.tokens, stepText controls value escape c⟩
  | .failed => s

/-- The state before the first character. -/
def Scan.start : Scan :=
  ⟨[], .between⟩

/-- The tokens of the whole text, if it ends between tokens or with a word. -/
def Scan.finish (s : Scan) : Option (List Token) :=
  match s.mode with
  | .between => some s.tokens.reverse
  | .word word => (wordValue? word.reverse).map fun v => (Token.scalar v :: s.tokens).reverse
  | .inText _ _ => none
  | .failed => none

/-- The tokens of a text. -/
def tokens? (controls : Controls) (s : List Char) : Option (List Token) :=
  (s.foldl (Scan.step controls) Scan.start).finish

end ReAct.Json
