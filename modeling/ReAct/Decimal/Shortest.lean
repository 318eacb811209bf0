import ReAct.Decimal.Double

/-!
# The shortest decimal of a double

A finite positive double is written with the fewest significant digits that read back as the same
double; of two candidates of that length the closer is taken, and the even one on a tie. The search
is the rule turned into a loop: for one digit, two digits and so on, both neighbours of the value on
that decimal grid are read back. The exact decimal expansion, which always reads back, is the answer
if no grid has one.
-/

namespace ReAct.Double

/-- The decimal number `digits * 10 ^ exponent`. -/
structure Decimal where
  digits : Nat
  exponent : Int
  deriving DecidableEq

/-- The decimal with its trailing zeros moved into the exponent; `bound` limits how many. -/
def Decimal.strip : (bound : Nat) → Decimal → Decimal
  | 0, d => d
  | bound + 1, d =>
    if d.digits % 10 = 0 && d.digits ≠ 0 then strip bound ⟨d.digits / 10, d.exponent + 1⟩ else d

/-- The double nearest to a decimal. -/
def Decimal.toDouble (d : Decimal) : Double :=
  ofDecimal false d.digits d.exponent

/-- The exponent of ten just above a rank's value: the value is below `10 ^ k` and not below
`10 ^ (k - 1)`. The value is scaled up so far that its integer part shows the leading digit. -/
def decimalMagnitude (rank : Nat) : Int :=
  (decimalLength (units rank * Nat.pow 10 400 / Nat.pow 2 unitScale) : Int) - 400

/-- A rank's value divided by `10 ^ exponent`, as a quotient of naturals. -/
def onGrid (rank : Nat) (exponent : Int) : Nat × Nat :=
  (units rank * Nat.pow 10 (-exponent).toNat, Nat.pow 2 unitScale * Nat.pow 10 exponent.toNat)

/-- The neighbours of a rank's value among the multiples of `10 ^ exponent`, the closer one first,
the even one on a tie. -/
def gridNeighbours (rank : Nat) (exponent : Int) : List Decimal :=
  let (num, den) := onGrid rank exponent
  let below := num / den
  let near := roundQuotient num den
  if near = below then [⟨below, exponent⟩, ⟨below + 1, exponent⟩]
  else [⟨below + 1, exponent⟩, ⟨below, exponent⟩]

/-- The exact decimal expansion of a rank's value. -/
def exactDecimal (rank : Nat) : Decimal :=
  ⟨units rank * Nat.pow 5 unitScale, -(unitScale : Int)⟩

/-- The decimals from which the shortest one is taken, those with fewer digits first. -/
def candidates (rank : Nat) : List Decimal :=
  ((List.range 17).flatMap fun n => gridNeighbours rank (decimalMagnitude rank - (n + 1 : Nat))).map
    (Decimal.strip 400)

/-- The first of some decimals that reads back as a double. -/
def Decimal.firstOf (x : Double) (candidates : List Decimal) : Option Decimal :=
  candidates.find? fun d => d.toDouble == x

/-- The fewest digits that read back as the double of a positive rank. -/
def shortest (rank : Fin rankLimit) : Decimal :=
  (Decimal.firstOf (.finite false rank) (candidates rank.val)).getD (exactDecimal rank.val)

end ReAct.Double
