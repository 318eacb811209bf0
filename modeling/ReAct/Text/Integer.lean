import ReAct.Text.Blank
import ReAct.Text.DecimalDigit

/-!
# Integers as text

Writing an integer in decimal, and the generous way of reading one that parameters allow: outer
blanks, a sign, digits of any script and single underscores between digits.
-/

namespace ReAct.Text

/-- The decimal digit of a number below ten. -/
def digitChar (n : Nat) : Char :=
  Char.ofNat ('0'.toNat + n)

/-- The decimal digits of `n` in front of `rest`. -/
def digitsOnto (n : Nat) (rest : List Char) : List Char :=
  if n < 10 then digitChar n :: rest else digitsOnto (n / 10) (digitChar (n % 10) :: rest)
termination_by n

/-- The decimal digits of a natural number. -/
def natural (n : Nat) : List Char :=
  digitsOnto n []

/-- The decimal text of an integer. -/
def integer (n : Int) : List Char :=
  if n < 0 then '-' :: natural n.natAbs else natural n.natAbs

/-- The decimal digits of `n`, padded on the left to at least `width` characters. -/
def padded (fill : Char) (width n : Nat) : List Char :=
  let digits := natural n
  List.replicate (width - digits.length) fill ++ digits

/-- Continues reading digits: after a digit there may be one underscore, after which a digit must
follow. `value` is what the digits so far stand for. -/
def readDigits? (value : Nat) : List Char → Option Nat
  | [] => some value
  | '_' :: c :: cs => (digitValue? c).bind fun d => readDigits? (value * 10 + d) cs
  | c :: cs => (digitValue? c).bind fun d => readDigits? (value * 10 + d) cs

/-- Reads digits of any script with single underscores between them; at least one digit. -/
def readNatural? : List Char → Option Nat
  | [] => none
  | c :: cs => (digitValue? c).bind fun d => readDigits? d cs

/-- Reads an integer with an optional sign between optional blanks. -/
def readInteger? (s : List Char) : Option Int :=
  match trimNumber s with
  | '-' :: digits => (readNatural? digits).map fun n => -(n : Int)
  | '+' :: digits => (readNatural? digits).map fun n => (n : Int)
  | digits => (readNatural? digits).map fun n => (n : Int)

/-- The value of a non-empty run of ASCII digits. -/
def asciiNatural? (s : List Char) : Option Nat :=
  if s.isEmpty || !s.all (fun c => '0' ≤ c && c ≤ '9') then none
  else some (s.foldl (fun n c => n * 10 + (c.toNat - '0'.toNat)) 0)

end ReAct.Text
