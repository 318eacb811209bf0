import ReAct.Decimal.Shortest
import ReAct.Text.Integer

/-!
# How numbers are laid out

A double is written with its shortest digits: positionally while the exponent of the leading digit
lies in a given range, otherwise with one digit before the point and a signed exponent. Whole
numbers written positionally keep a zero after the point, so a double never looks like an integer.

`Decimal.readNumber?` reads the number grammar of JSON: an optional minus sign, an integer part
without superfluous zeros, an optional fraction and an optional exponent. A literal with neither
fraction nor exponent is an integer, every other one a double.
-/

namespace ReAct.Decimal

open ReAct.Text

/-- The decisions of the written form of doubles. -/
structure Layout where
  /-- The least exponent of the leading digit that is still written positionally. -/
  positionalFrom : Int
  /-- The least exponent above those that are written positionally. -/
  positionalBelow : Int
  /-- The least number of digits of a written exponent. -/
  exponentWidth : Nat
  /-- The words for what is not a number and for the positive infinity. -/
  nan : List Char
  infinity : List Char

/-- Doubles are written positionally from `0.0001` up to below `10 ^ 16`, otherwise with an exponent
of at least two digits. -/
def displayLayout : Layout where
  positionalFrom := -4
  positionalBelow := 16
  exponentWidth := 2
  nan := ['n', 'a', 'n']
  infinity := ['i', 'n', 'f']

/-- JSON texts write doubles like everything else, but have words of their own for the values that
are not finite. -/
def jsonLayout : Layout :=
  { displayLayout with
    nan := ['N', 'a', 'N']
    infinity := ['I', 'n', 'f', 'i', 'n', 'i', 't', 'y'] }

/-- Digits and point: `exponent` is the exponent of the leading digit. -/
def positional (digits : List Char) (exponent : Int) : List Char :=
  if exponent < 0 then
    '0' :: '.' :: List.replicate ((-exponent).toNat - 1) '0' ++ digits
  else
    let whole := exponent.toNat + 1
    if digits.length ≤ whole then
      digits ++ List.replicate (whole - digits.length) '0' ++ ['.', '0']
    else
      digits.take whole ++ '.' :: digits.drop whole

/-- One digit, the others after a point if there are any, and a signed exponent. -/
def scientific (layout : Layout) (digits : List Char) (exponent : Int) : List Char :=
  let mantissa :=
    match digits with
    | [] => []
    | [d] => [d]
    | d :: ds => d :: '.' :: ds
  let sign := if exponent < 0 then '-' else '+'
  mantissa ++ 'e' :: sign :: padded '0' layout.exponentWidth exponent.natAbs

/-- The text of a positive decimal. -/
def render (layout : Layout) (d : Double.Decimal) : List Char :=
  let digits := natural d.digits
  let exponent := d.exponent + digits.length - 1
  if layout.positionalFrom ≤ exponent ∧ exponent < layout.positionalBelow then
    positional digits exponent
  else
    scientific layout digits exponent

/-- The text of a double. -/
def text (layout : Layout) : Double → List Char
  | .nan => layout.nan
  | .infinite negative => (if negative then ['-'] else []) ++ layout.infinity
  | .finite negative rank =>
    (if negative then ['-'] else []) ++
      (if rank.val = 0 then positional ['0'] 0 else render layout (Double.shortest rank))

/-- A number of the JSON grammar. -/
inductive Number where
  | int (value : Int)
  | float (value : Double)

/-- Splits off the leading ASCII digits. -/
def spanDigits (s : List Char) : List Char × List Char :=
  s.span fun c => '0' ≤ c && c ≤ '9'

/-- The exponent part of a number, which must be the whole rest; nothing stands for zero. -/
def readExponent? : List Char → Option Int
  | [] => some 0
  | e :: rest =>
    if e = 'e' ∨ e = 'E' then
      match rest with
      | '-' :: digits => (asciiNatural? digits).map fun n => -(n : Int)
      | '+' :: digits => (asciiNatural? digits).map fun n => (n : Int)
      | digits => (asciiNatural? digits).map fun n => (n : Int)
    else none

/-- An integer part has at least one digit, and starts with zero only if that is all of it. -/
def isIntegerPart : List Char → Bool
  | [] => false
  | ['0'] => true
  | c :: _ => c ≠ '0'

/-- Reads a number without its sign, which must be the whole text. -/
def readUnsigned? (negative : Bool) (s : List Char) : Option Number :=
  let (whole, afterWhole) := spanDigits s
  if !isIntegerPart whole then none
  else
    match afterWhole with
    | [] => (asciiNatural? whole).map fun n => .int (if negative then -(n : Int) else n)
    | '.' :: rest =>
      let (fraction, afterFraction) := spanDigits rest
      if fraction.isEmpty then none
      else
        (asciiNatural? (whole ++ fraction)).bind fun digits =>
          (readExponent? afterFraction).map fun exponent =>
            .float (Double.ofDecimal negative digits (exponent - fraction.length))
    | rest =>
      (asciiNatural? whole).bind fun digits =>
        (readExponent? rest).map fun exponent => .float (Double.ofDecimal negative digits exponent)

/-- Reads a number that must be the whole text. -/
def readNumber? (s : List Char) : Option Number :=
  match s with
  | '-' :: rest => readUnsigned? true rest
  | rest => readUnsigned? false rest

end ReAct.Decimal
