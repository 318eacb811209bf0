import ReAct.Text.Printable

/-!
# Quoted text

How a text is shown between quotes, in messages and inside lists: single quotes unless only double
ones avoid an escape, a back-slash before the quote in use and before itself, short escapes for the
line controls and numbered ones for everything else that is not printable.
-/

namespace ReAct.Text

/-- One hexadecimal digit, in lower case. -/
def hexDigit (n : Nat) : Char :=
  if n < 10 then Char.ofNat ('0'.toNat + n) else Char.ofNat ('a'.toNat + (n - 10))

/-- The last `width` hexadecimal digits of a number. -/
def hexDigits : (width : Nat) → Nat → List Char
  | 0, _ => []
  | width + 1, n => hexDigits width (n / 16) ++ [hexDigit (n % 16)]

/-- The quote that a text is shown in: single, unless the text has single quotes and no double. -/
def quoteFor (s : List Char) : Char :=
  if s.contains '\'' && !s.contains '"' then '"' else '\''

/-- How a quoted text shows one character. -/
def quotedChar (isShown : Char → Bool) (quote c : Char) : List Char :=
  if c = '\\' ∨ c = quote then ['\\', c]
  else if c = '\n' then ['\\', 'n']
  else if c = '\r' then ['\\', 'r']
  else if c = '\t' then ['\\', 't']
  else if isShown c then [c]
  else if c.toNat ≤ 0xFF then '\\' :: 'x' :: hexDigits 2 c.toNat
  else if c.toNat ≤ 0xFFFF then '\\' :: 'u' :: hexDigits 4 c.toNat
  else '\\' :: 'U' :: hexDigits 8 c.toNat

/-- A text between quotes, in which the characters that `isShown` rejects are escaped. -/
def quotedWith (isShown : Char → Bool) (s : List Char) : List Char :=
  let quote := quoteFor s
  quote :: s.flatMap (quotedChar isShown quote) ++ [quote]

/-- A text between quotes. -/
def quoted (s : List Char) : List Char :=
  quotedWith isPrintable s

/-- A text between quotes, in ASCII. -/
def quotedAscii (s : List Char) : List Char :=
  quotedWith (fun c => isPrintable c && c.toNat < 128) s

end ReAct.Text
