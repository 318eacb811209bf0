/-!
# Binary64 numbers

The doubles of the 64-bit binary format, as data: the finite ones by sign and rank, where the rank
counts the non-negative finite doubles upwards from zero. Equality of doubles in this sense is
decidable and tells the two zeros apart.

A decimal is read by exact arithmetic on naturals and one rounding to the nearest double, ties to
the even rank. Ranks make the rounding uniform: the carry out of a full mantissa lands on the first
double of the next binade, and the carry out of the last binade lands on `Double.rankLimit`, where
the infinities start.

Powers are written as `Nat.pow`, which is one function whatever algebra is imported beside it.
-/

namespace ReAct

/-- One more than the greatest rank of a finite double. -/
def Double.rankLimit : Nat := 2047 * Nat.pow 2 52

/-- A 64-bit binary floating-point number. -/
inductive Double where
  | finite (negative : Bool) (rank : Fin Double.rankLimit)
  | infinite (negative : Bool)
  | nan
  deriving DecidableEq

namespace Double

/-- The zero of either sign. -/
def signedZero (negative : Bool) : Double := .finite negative ⟨0, by decide⟩

/-- The least positive double is this power of two, inverted. -/
def unitScale : Nat := 1074

/-- The positive zero. -/
def zero : Double := signedZero false

/-- A quotient rounded to the nearest natural number, a half going to the even neighbour. -/
def roundQuotient (num den : Nat) : Nat :=
  let q := num / den
  let r := num % den
  if 2 * r < den then q else if 2 * r > den then q + 1 else q + q % 2

/-- The rank nearest to `num / den`. The quotient is measured in units of the least positive double;
`shift` is what has to be dropped from it to leave 53 bits. -/
def nearestRank (num den : Nat) : Nat :=
  let scaled := num * Nat.pow 2 unitScale
  let shift := Nat.log2 (scaled / den) - 52
  shift * Nat.pow 2 52 + roundQuotient scaled (den * Nat.pow 2 shift)

/-- The double of a sign and a rank; ranks from the limit on are infinite. -/
def ofRank (negative : Bool) (rank : Nat) : Double :=
  if h : rank < rankLimit then .finite negative ⟨rank, h⟩ else .infinite negative

/-- The double nearest to `num / den`. -/
def ofQuotient (negative : Bool) (num den : Nat) : Double :=
  ofRank negative (nearestRank num den)

/-- The number of decimal digits of a natural number; zero has none. -/
def decimalLength (n : Nat) : Nat :=
  if n = 0 then 0 else decimalLength (n / 10) + 1
termination_by n

/-- The double nearest to `digits * 10 ^ exponent`. Decimals far outside the range of the doubles
are decided by their magnitude alone. -/
def ofDecimal (negative : Bool) (digits : Nat) (exponent : Int) : Double :=
  if digits = 0 then signedZero negative
  else
    let magnitude := (decimalLength digits : Int) + exponent
    if magnitude > 400 then .infinite negative
    else if magnitude < -400 then signedZero negative
    else if 0 ≤ exponent then ofQuotient negative (digits * Nat.pow 10 exponent.toNat) 1
    else ofQuotient negative digits (Nat.pow 10 (-exponent).toNat)

/-- The mantissa of a rank. -/
def mantissa (rank : Nat) : Nat :=
  if rank < Nat.pow 2 52 then rank else Nat.pow 2 52 + rank % Nat.pow 2 52

/-- The number of binary places by which the mantissa of a rank is shifted up from the unit. -/
def binaryPlaces (rank : Nat) : Nat :=
  rank / Nat.pow 2 52 - 1

/-- A rank's value in units of the least positive double. -/
def units (rank : Nat) : Nat :=
  mantissa rank * Nat.pow 2 (binaryPlaces rank)

/-- The integer that a double is equal to, if it is whole. -/
def toInt? : Double → Option Int
  | .finite negative rank =>
    let n := units rank.val
    if n % Nat.pow 2 unitScale = 0 then
      let k : Int := (n / Nat.pow 2 unitScale : Nat)
      some (if negative then -k else k)
    else none
  | .infinite _ => none
  | .nan => none

/-- The integer that a double is equal to, if it is whole and less than `2 ^ 63` in magnitude. -/
def toWord? (x : Double) : Option Int :=
  x.toInt?.filter fun n => n.natAbs < Nat.pow 2 63

/-- The integer part of a finite double: its fraction is dropped. -/
def truncate? : Double → Option Int
  | .finite negative rank =>
    let k : Int := (units rank.val / Nat.pow 2 unitScale : Nat)
    some (if negative then -k else k)
  | .infinite _ => none
  | .nan => none

/-- Whether a double is one of the two zeros. -/
def isZero : Double → Bool
  | .finite _ rank => rank.val == 0
  | .infinite _ => false
  | .nan => false

end Double

end ReAct
