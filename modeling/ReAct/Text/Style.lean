import ReAct.Text.DecimalDigit
import ReAct.Text.Quoted

/-!
# Styles of a text

A style says how many characters of a text are shown, how wide the result is at least, and where the
filling goes. Written out it is an optional alignment, behind its filling character if that is not a
space, an optional zero, the width, the limit behind a point, and the letter `s`.

The notation knows more than a text can use. Such a style can be read, and `Style.apply` says which
part of it does not fit.

## Main definitions

* `Style.read?`: the style that a text denotes.
* `Style.apply`: a text in a style.
-/

namespace ReAct.Text

/-- Where a text stands in a field that is wider. -/
inductive Alignment where
  | left
  | right
  | center
  /-- The filling stands between a sign and its digits, so only numbers can have it. -/
  | afterSign
  deriving DecidableEq

/-- The alignment that a character denotes. -/
def Alignment.ofChar? (c : Char) : Option Alignment :=
  if c = '<' then some .left
  else if c = '>' then some .right
  else if c = '^' then some .center
  else if c = '=' then some .afterSign
  else none

/-- How a text is shown. The last four fields are for numbers. -/
structure Style where
  filling : Char := ' '
  alignment : Alignment := .left
  width : Nat := 0
  limit : Option Nat := none
  kind : Char := 's'
  sign : Option Char := none
  noNegativeZero : Bool := false
  alternate : Bool := false

namespace Style

/-- Why there is no text in a style. -/
inductive Error where
  | unreadable (style : List Char)
  | missingLimit
  | groupedTwice
  | grouped (separator kind : Char)
  | kind (c : Char)
  | space
  | sign
  | negativeZero
  | alternate
  | afterSign
  deriving DecidableEq

/-- A character in a message: as it is if it is printable ASCII, else by its number. -/
def charText (c : Char) : List Char :=
  if 32 < c.toNat && c.toNat < 127 then [c] else '\\' :: 'x' :: (Nat.toDigits 16 c.toNat)

/-- The text of an error. -/
def Error.text : Error → String
  | .unreadable style =>
    "Invalid format specifier '" ++ String.ofList style ++ "' for object of type 'str'"
  | .missingLimit => "Format specifier missing precision"
  | .groupedTwice => "Cannot specify both ',' and '_'."
  | .grouped separator letter =>
    "Cannot specify '" ++ String.ofList [separator] ++ "' with '" ++ String.ofList (charText letter)
      ++ "'."
  | .kind c => "Unknown format code '" ++ String.ofList (charText c) ++ "' for object of type 'str'"
  | .space => "Space not allowed in string format specifier"
  | .sign => "Sign not allowed in string format specifier"
  | .negativeZero => "Negative zero coercion (z) not allowed in string format specifier"
  | .alternate => "Alternate form (#) not allowed in string format specifier"
  | .afterSign => "'=' alignment not allowed in string format specifier"

/-- The alignment at the front of a style, perhaps behind a filling character, and the rest. -/
def readAlignment : List Char → Option Char × Option Alignment × List Char
  | filling :: c :: rest =>
    match Alignment.ofChar? c with
    | some alignment => (some filling, some alignment, rest)
    | none =>
      match Alignment.ofChar? filling with
      | some alignment => (none, some alignment, c :: rest)
      | none => (none, none, filling :: c :: rest)
  | [c] =>
    match Alignment.ofChar? c with
    | some alignment => (none, some alignment, [])
    | none => (none, none, [c])
  | [] => (none, none, [])

/-- The first character if it is one of some, and the rest. -/
def readOne (isWanted : Char → Bool) : List Char → Option Char × List Char
  | [] => (none, [])
  | c :: rest => if isWanted c then (some c, rest) else (none, c :: rest)

/-- The number at the front of a style, if digits stand there, and the rest. -/
def readCount (s : List Char) : Option Nat × List Char :=
  match s.span isDigit with
  | ([], rest) => (none, rest)
  | (digits, rest) =>
    (some (digits.foldl (fun n c => n * 10 + (digitValue? c).getD 0) 0), rest)

/-- The separator of groups of digits at the front of a style, and the rest. -/
def readSeparator : List Char → Except Error (Option Char × List Char)
  | ',' :: '_' :: _ => .error .groupedTwice
  | '_' :: ',' :: _ => .error .groupedTwice
  | s => .ok (readOne (fun c => c = ',' || c = '_') s)

/-- The limit behind a point at the front of a style, and the rest. -/
def readLimit : List Char → Except Error (Option Nat × List Char)
  | '.' :: rest =>
    match readCount rest with
    | (none, _) => .error .missingLimit
    | (limit, rest) => .ok (limit, rest)
  | s => .ok (none, s)

/-- The kinds of numbers whose digits a separator may group. -/
def isGroupedBy (separator : Char) (kind : Option Char) : Bool :=
  match kind with
  | none => false
  | some c => "defgEG%".toList.contains c || separator = '_' && "boxX".toList.contains c

/-- The style that a text denotes. -/
def read? (s : List Char) : Except Error Style := do
  let (filling, alignment, rest) := readAlignment s
  let (sign, rest) := readOne (fun c => c = ' ' || c = '+' || c = '-') rest
  let (noNegativeZero, rest) := readOne (· = 'z') rest
  let (alternate, rest) := readOne (· = '#') rest
  let (zero, rest) := if filling.isNone then readOne (· = '0') rest else (none, rest)
  let (width, rest) := readCount rest
  let (separator, rest) ← readSeparator rest
  let (limit, rest) ← readLimit rest
  let (kind, rest) := readOne (fun _ => true) rest
  if !rest.isEmpty then throw (.unreadable s)
  match separator with
  | some separator =>
    if !isGroupedBy separator kind then throw (.grouped separator (kind.getD 's'))
  | none => pure ()
  return {
    filling := (filling.or zero).getD ' '
    alignment := alignment.getD .left
    width := width.getD 0
    limit
    kind := kind.getD 's'
    sign
    noNegativeZero := noNegativeZero.isSome
    alternate := alternate.isSome }

/-- Fills a text up to a width. -/
def fill (filling : Char) (alignment : Alignment) (width : Nat) (s : List Char) : List Char :=
  let missing := width - s.length
  match alignment with
  | .left => s ++ List.replicate missing filling
  | .right => List.replicate missing filling ++ s
  | .center =>
    List.replicate (missing / 2) filling ++ s ++ List.replicate (missing - missing / 2) filling
  | .afterSign => s

/-- A text in a style. -/
def apply (style : Style) (s : List Char) : Except Error (List Char) :=
  if style.kind ≠ 's' then .error (.kind style.kind)
  else if style.sign = some ' ' then .error .space
  else if style.sign.isSome then .error .sign
  else if style.noNegativeZero then .error .negativeZero
  else if style.alternate then .error .alternate
  else if style.alignment = .afterSign then .error .afterSign
  else
    .ok <| fill style.filling style.alignment style.width <|
      match style.limit with
      | some limit => s.take limit
      | none => s

end Style

end ReAct.Text
