import ReAct.Failure
import ReAct.Json.Path
import ReAct.Json.Reader

/-!
# The limits of the interpreter

What a text denotes and how a value is written does not depend on their size, but the interpreter
that runs a program bounds both: integers whose decimal form is too long are not converted, and
containers that nest too deep exhaust its stack. Neither makes a text unreadable. The interpreter
gives up, with a failure that handlers of unreadable texts do not handle.

A text is followed from left to right, so a limit counts where it is met, and nothing counts behind
the place where the text turns out to be no JSON. Half of a surrogate pair that stands alone, which
is no character and which `ofChars?` refuses, does not stop the interpreter; here the text is read
on with another character in its place.

How many containers may be open depends on how much of the stack is in use already, so the bounds
are parameters.

## Main definitions

* `Limits`, `Overrun`: the bounds, and how one of them is exceeded
* `Limits.readOverrun?`: what is exceeded where a text is read
* `Limits.textOverrun?`, `Limits.showOverrun?`: where a value is written or shown as a text
* `Limits.pathOverrun?`: where a path is followed
* `Whole`: the texts in which no half of a surrogate pair stands alone
-/

namespace ReAct.Json

open ReAct.Text

/-- The bounds of an interpreter. -/
structure Limits where
  /-- On the digits of an integer that is read or written. -/
  digits : Nat := 4300
  /-- On the containers that are open at once in a text that is read. -/
  reading : Nat := 900
  /-- On the containers around a part of a value that is written. -/
  writing : Nat := 900
  /-- On the levels of a value that is shown. -/
  showing : Nat := 900
  /-- On the wildcards of a path that are followed one inside the other. -/
  walking : Nat := 400

/-- How a bound is exceeded. -/
inductive Overrun where
  /-- An integer of a text has `length` digits. -/
  | numeral (limit length : Nat)
  /-- An integer that is written or shown has too many digits. -/
  | integer (limit : Nat)
  /-- The stack is exhausted; `activity` says what was going on, if that is told. -/
  | stack (activity : String)
  deriving DecidableEq

/-- What the two failures of long integers have in common. -/
def Overrun.digitsText (limit : Nat) (detail : String) : String :=
  "Exceeds the limit (" ++ toString limit ++ " digits) for integer string conversion" ++ detail ++
    "; use sys.set_int_max_str_digits() to increase the limit"

/-- The failure of an interpreter that gives up. -/
def Overrun.failure : Overrun → Failure
  | .numeral limit length =>
    ⟨.value, digitsText limit (": value has " ++ toString length ++ " digits")⟩
  | .integer limit => ⟨.value, digitsText limit ""⟩
  | .stack activity => ⟨.runtime, "maximum recursion depth exceeded" ++ activity⟩

/-! ## Halves of surrogate pairs -/

/-- Whether a number is that of the second half of a surrogate pair. -/
def isSecondHalf (n : Nat) : Bool :=
  0xDC00 ≤ n && n < 0xE000

/-- Whether a character shows that half of a surrogate pair stands alone. -/
def Mode.splits : Mode → Char → Bool
  | .inText _ (.digits left n), c =>
    left ≤ 1 && (hexValue? c).any fun d => isSecondHalf (n * 16 + d)
  | .inText _ (.pair _), c => c ≠ '\\'
  | .inText _ (.pairBackslash _), c => c ≠ 'u'
  | .inText _ (.pairDigits _ left n), c =>
    left ≤ 1 && (hexValue? c).any fun d => !isSecondHalf (n * 16 + d)
  | _, _ => false

/-- What stands in for half of a surrogate pair. -/
def replacement : Char := '\ufffd'

/-- Gives up waiting for the second half of a pair. What was read of an escape since the first half
is read as an escape of its own. -/
def Mode.mended : Mode → Mode
  | .inText value (.pair _) => .inText (replacement :: value) .plain
  | .inText value (.pairBackslash _) => .inText (replacement :: value) .backslash
  | .inText value (.pairDigits _ left n) => .inText (replacement :: value) (.digits left n)
  | mode => mode

/-- One character of a text in which halves of surrogate pairs may stand alone. -/
def Scan.stepLoosely (controls : Controls) (s : Scan) (c : Char) : Scan :=
  if s.mode.splits c then
    match s.mode with
    | .inText value (.digits _ _) => ⟨s.tokens, .inText (replacement :: value) .plain⟩
    | mode => Scan.step controls ⟨s.tokens, mode.mended⟩ c
  else s.step controls c

/-- Whether half of a surrogate pair stands alone in the rest of a text. -/
def Scan.meetsHalf (controls : Controls) : Scan → List Char → Bool
  | _, [] => false
  | s, c :: rest => s.mode.splits c || (s.step controls c).meetsHalf controls rest

/-- No half of a surrogate pair stands alone, as far as a text is read. -/
def Whole (controls : Controls) (s : List Char) : Prop :=
  Scan.start.meetsHalf controls s = false

instance (controls : Controls) (s : List Char) : Decidable (Whole controls s) :=
  inferInstanceAs (Decidable (_ = _))

/-! ## Texts that are read -/

/-- Where the interpreter stands in a text: inside of a token, and at what is due. -/
structure Reading where
  mode : Mode := .between
  due : Due := .value false []

/-- The number of containers that are open. -/
def Due.depth : Due → Nat
  | .value _ stack => stack.length
  | .name _ _ stack => stack.length + 1
  | .colon _ _ stack => stack.length + 1
  | .afterItem _ stack => stack.length + 1
  | .afterMember _ stack => stack.length + 1
  | .nothing _ => 0
  | .fault => 0

/-- Whether a value may come next. -/
def Due.isValue : Due → Bool
  | .value _ _ => true
  | _ => false

/-- One character. -/
def Reading.step (controls : Controls) (reading : Reading) (c : Char) : Reading :=
  let scan := Scan.stepLoosely controls ⟨[], reading.mode⟩ c
  ⟨scan.mode, scan.tokens.foldr (fun token due => due.step token) reading.due⟩

/-- The value of a text that ends here. -/
def Reading.value? (reading : Reading) : Option Json :=
  match reading.mode with
  | .between => reading.due.value?
  | .word word => (wordValue? word.reverse).bind fun v => (reading.due.step (.scalar v)).value?
  | _ => none

/-- The value of a text in which halves of surrogate pairs may stand alone. -/
def looseValue? (controls : Controls) (s : List Char) : Option Json :=
  (s.foldl (Reading.step controls) {}).value?

/-- Whether a text starts with a digit. -/
def startsWithDigit : List Char → Bool
  | c :: _ => '0' ≤ c && c ≤ '9'
  | [] => false

/-- Whether what follows an integer makes it a number with a fraction or an exponent. -/
def isFractional : List Char → Bool
  | '.' :: rest => startsWithDigit rest
  | e :: '+' :: rest => (e = 'e' || e = 'E') && startsWithDigit rest
  | e :: '-' :: rest => (e = 'e' || e = 'E') && startsWithDigit rest
  | e :: rest => (e = 'e' || e = 'E') && startsWithDigit rest
  | [] => false

/-- The number of digits of the integer at the start of a word. What follows it in the word, and may
not be there, is found later. A leading zero stands alone, and is left out. -/
def leadingDigits (word : List Char) : Nat :=
  let unsigned :=
    match word with
    | '-' :: rest => rest
    | _ => word
  let (digits, rest) := Decimal.spanDigits unsigned
  if digits.head? = some '0' || isFractional rest then 0 else digits.length

namespace Limits

variable (limits : Limits) (controls : Controls)

/-- Whether an integer of a text is too long. -/
def numeralOverrun? (length : Nat) : Option Overrun :=
  if limits.digits < length then some (.numeral limits.digits length) else none

/-- What is exceeded by the integer at the end of a word that stands where a value is due. -/
def wordOverrun? (reading : Reading) : Option Overrun :=
  match reading.mode with
  | .word word =>
    if reading.due.isValue then limits.numeralOverrun? (leadingDigits word.reverse) else none
  | _ => none

/-- What is exceeded by the container that a character opens. -/
def depthOverrun? (reading : Reading) (c : Char) : Option Overrun :=
  if limits.reading < (reading.step controls c).due.depth then
    let container := if c = '[' then "array" else "object"
    some (.stack (" while decoding a JSON " ++ container ++ " from a unicode string"))
  else none

/-- What is exceeded at a character. -/
def overrunAt? (reading : Reading) (c : Char) : Option Overrun :=
  (if endsWord c then limits.wordOverrun? reading else none) <|>
    limits.depthOverrun? controls reading c

/-- What is exceeded in the rest of a text. -/
def overrunFrom? : Reading → List Char → Option Overrun
  | reading, [] => limits.wordOverrun? reading
  | reading, c :: rest =>
    limits.overrunAt? controls reading c <|> overrunFrom? (reading.step controls c) rest

/-- What is exceeded where a text is read. -/
def readOverrun? (s : List Char) : Option Overrun :=
  limits.overrunFrom? controls {} s

end Limits

/-! ## Values that are written or shown -/

/-- What is done with a value. -/
inductive Activity where
  | writing
  | showing

/-- What is told of an exhausted stack. -/
def Activity.text : Activity → String
  | .writing => " while encoding a JSON object"
  | .showing => " while getting the repr of an object"

/-- What a value without parts takes of the stack. -/
def Activity.leaf : Activity → Nat
  | .writing => 0
  | .showing => 1

/-- Whether the decimal form of an integer is too long. -/
def Limits.integerOverrun? (limits : Limits) (n : Int) : Option Overrun :=
  if limits.digits < (natural n.natAbs).length then some (.integer limits.digits) else none

mutual

/-- What is exceeded by a value if `left` levels of the stack are left. -/
def Limits.valueOverrun? (limits : Limits) (activity : Activity) : (left : Nat) → Json →
    Option Overrun
  | 0, .arr _ => some (.stack activity.text)
  | left + 1, .arr items => limits.itemsOverrun? activity left items
  | 0, .obj _ => some (.stack activity.text)
  | left + 1, .obj members => limits.membersOverrun? activity left members
  | left, .int n =>
    if left < activity.leaf then some (.stack activity.text) else limits.integerOverrun? n
  | left, _ => if left < activity.leaf then some (.stack activity.text) else none

/-- What is exceeded by items. -/
def Limits.itemsOverrun? (limits : Limits) (activity : Activity) (left : Nat) : List Json →
    Option Overrun
  | [] => none
  | x :: rest =>
    limits.valueOverrun? activity left x <|> limits.itemsOverrun? activity left rest

/-- What is exceeded by members. -/
def Limits.membersOverrun? (limits : Limits) (activity : Activity) (left : Nat) :
    List (String × Json) → Option Overrun
  | [] => none
  | (_, x) :: rest =>
    limits.valueOverrun? activity left x <|> limits.membersOverrun? activity left rest

end

namespace Limits

variable (limits : Limits)

/-- What is exceeded where a value is written as a JSON text. -/
def writeOverrun? (v : Json) : Option Overrun :=
  limits.valueOverrun? .writing limits.writing v

/-- What is exceeded where a value becomes a text: a text is one already, everything else is
written. -/
def textOverrun? : Json → Option Overrun
  | .str _ => none
  | v => limits.writeOverrun? v

/-- What is exceeded where a value is shown. A text is shown as it is. -/
def showOverrun? : Json → Option Overrun
  | .str _ => none
  | v => limits.valueOverrun? .showing limits.showing v

/-! ## Paths that are followed -/

/-- The steps of a text with the number of characters that each one takes, under the bounds of
`stepsWithin`. -/
def spansWithin : (bound : Nat) → List Char → List (Step × Nat)
  | 0, _ => []
  | _, [] => []
  | bound + 1, c :: s =>
    match bracketStep? (c :: s) with
    | some (step, rest) => (step, s.length + 1 - rest.length) :: spansWithin bound rest
    | none =>
      match keyStep? (c :: s) with
      | some (step, rest) => (step, s.length + 1 - rest.length) :: spansWithin bound rest
      | none => spansWithin bound s

/-- What is exceeded on the way of some steps, if `left` more wildcards can be followed. An index is
read when the way has come to it; it stands in brackets, which are no digits. -/
def walkOverrun? : (left : Nat) → List (Step × Nat) → Json → Option Overrun
  | _, [], _ => none
  | left, (.key name, _) :: rest, v =>
    if v.isNull then none else walkOverrun? left rest (v.member name)
  | left, (.index n, width) :: rest, v =>
    if v.isNull then none
    else
      limits.numeralOverrun? (width - 2) <|>
        match v with
        | .arr items => walkOverrun? left rest (items[n]?.getD .null)
        | _ => none
  | left, (.every, _) :: rest, v =>
    match left, v with
    | 0, .arr (_ :: _) => some (.stack "")
    | left + 1, .arr items => items.findSome? (walkOverrun? left rest)
    | _, _ => none

/-- What is exceeded where a written path is followed. -/
def pathOverrun? (v : Json) (path : String) : Option Overrun :=
  let s := trim path.toList
  let s :=
    match s with
    | '$' :: rest => rest
    | _ => s
  if path = "" then none else limits.walkOverrun? limits.walking (spansWithin s.length s) v

end Limits

end ReAct.Json
