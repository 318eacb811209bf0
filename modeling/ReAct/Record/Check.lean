import ReAct.Record.Issue
import ReAct.Json.Basic
import ReAct.Text.Integer
import ReAct.Text.Search
import ReAct.Decimal.Layout

/-!
# Checking records

A record is checked field by field, and all faults are reported, in the order in which the fields
are declared. Texts must be texts. Integers and flags are read generously: an integer may be written
as a flag, a whole double or a text, a flag as a zero, a one or one of a few words.
-/

namespace ReAct.Record

open ReAct.Text

/-- A value, or every issue on the way to it. -/
inductive Checked (α : Type) where
  | valid (value : α)
  | faulty (issues : List Issue)

namespace Checked

variable {α β : Type}

/-- Applies a function to the value. -/
def map (f : α → β) : Checked α → Checked β
  | .valid a => .valid (f a)
  | .faulty issues => .faulty issues

/-- Applies a checked function to a checked value; the issues of both count. -/
def apply : Checked (α → β) → Checked α → Checked β
  | .valid f, .valid a => .valid (f a)
  | .valid _, .faulty issues => .faulty issues
  | .faulty issues, .valid _ => .faulty issues
  | .faulty first, .faulty second => .faulty (first ++ second)

instance : Functor Checked where
  map := map

instance : Seq Checked where
  seq f a := apply f (a ())

/-- The issues of a value found under a name. -/
def under (name : String) : Checked α → Checked α
  | .valid a => .valid a
  | .faulty issues => .faulty (issues.map fun issue => { issue with path := name :: issue.path })

/-- A single issue at the place itself. -/
def issue (kind : Issue.Kind) : Checked α :=
  .faulty [⟨[], kind⟩]

/-- The value, or the failure that reports the issues. -/
def toExcept : Checked α → Except Failure α
  | .valid a => .ok a
  | .faulty issues => .error (failure issues)

end Checked

/-- How a value is checked. -/
abbrev Check (α : Type) : Type := Json → Checked α

/-- Any value. -/
def any : Check Json := .valid

/-- A text. -/
def text : Check String
  | .str s => .valid s
  | _ => .issue .text

/-- Null stands for absence. -/
def optional {α : Type} (check : Check α) : Check (Option α)
  | .null => .valid none
  | v => (check v).map some

/-- Drops the leading zeros of a number, and underscores among them. Where nothing else is left in
front of the point or the end, the last of them stays. -/
def dropLeadingZeros : List Char → List Char
  | '0' :: rest =>
    match ('0' :: rest).span fun c => c = '0' || c = '_' with
    | (zeros, []) => zeros.drop (zeros.length - 1)
    | (zeros, '.' :: fraction) => zeros.drop (zeros.length - 1) ++ '.' :: fraction
    | (_, rest) => rest
  | s => s

/-- Drops the point of a number and the zeros after it. -/
def dropZeroFraction (s : List Char) : List Char :=
  match s.span fun c => c ≠ '.' with
  | (whole, '.' :: fraction) => if fraction.all (· = '0') then whole else s
  | _ => s

/-- Drops the underscores of a number, which stand neither at its ends nor next to each other. -/
def dropUnderscores? (s : List Char) : Option (List Char) :=
  if s.head? = some '_' || s.getLast? = some '_' || Text.contains ['_', '_'] s then none
  else some (s.filter fun c => c ≠ '_')

/-- ASCII digits, perhaps behind a minus sign. -/
def signedDigits? : List Char → Option Int
  | '-' :: digits => (asciiNatural? digits).map fun n => -(n : Int)
  | digits => (asciiNatural? digits).map fun n => (n : Int)

/-- A whole number in a text: outer blanks, a sign, single underscores and a fraction of zeros are
allowed. -/
def wholeNumber? (s : List Char) : Option Int :=
  let unsigned? (s : List Char) : Option Int :=
    (dropUnderscores? (dropZeroFraction (dropLeadingZeros s))).bind signedDigits?
  match trimNumber s with
  | '+' :: '-' :: _ => none
  | '+' :: rest => unsigned? rest
  | rest => unsigned? rest

/-- An integer, or a flag, whole double or text that stands for one. -/
def integer : Check Int
  | .int n => .valid n
  | .bool b => .valid (if b then 1 else 0)
  | .float (.finite negative rank) =>
    match (Double.finite negative rank).toInt? with
    | some n => if n.natAbs < Nat.pow 2 63 then .valid n else .issue .integerText
    | none => .issue .fractional
  | .float _ => .issue .notFinite
  | .str s =>
    match wholeNumber? s.toList with
    | some n => .valid n
    | none => .issue .integerText
  | _ => .issue .integer

/-- The words for a flag, in any case. -/
def flagWord? (s : String) : Option Bool :=
  let s := s.map Char.toLower
  if ["0", "off", "f", "false", "n", "no"].contains s then some false
  else if ["1", "on", "t", "true", "y", "yes"].contains s then some true
  else none

/-- The flag that a number stands for. -/
def flagOfInt (n : Int) : Checked Bool :=
  if n = 0 then .valid false else if n = 1 then .valid true else .issue .flagText

/-- Whether an integer has a place among the signed numbers of 64 bits. -/
def fitsWord (n : Int) : Bool :=
  if n < 0 then n.natAbs ≤ Nat.pow 2 63 else n.natAbs < Nat.pow 2 63

/-- A flag, or a zero, one or word that stands for one. -/
def flag : Check Bool
  | .bool b => .valid b
  | .int n => if fitsWord n then flagOfInt n else .issue .flag
  | .float x =>
    match x.toWord? with
    | some n => flagOfInt n
    | none => .issue .flag
  | .str s =>
    match flagWord? s with
    | some b => .valid b
    | none => .issue .flagText
  | _ => .issue .flag

/-- The items of a list, each checked under its position. -/
def itemsFrom {α : Type} (check : Check α) : (position : Nat) → List Json → Checked (List α)
  | _, [] => .valid []
  | position, v :: rest =>
    (((check v).under (toString position)).map List.cons).apply
      (itemsFrom check (position + 1) rest)

/-- A list. -/
def list {α : Type} (check : Check α) : Check (List α)
  | .arr items => itemsFrom check 0 items
  | _ => .issue .list

/-- The members of an object, each checked under its name. -/
def membersOf {α : Type} (check : Check α) : Fields Json → Checked (Fields α)
  | [] => .valid []
  | (name, v) :: rest =>
    (((check v).under name).map fun a fields => (name, a) :: fields).apply (membersOf check rest)

/-- An object whose members are all of one kind. -/
def table {α : Type} (check : Check α) : Check (Fields α)
  | .obj members => membersOf check members
  | _ => .issue .object

/-- A record: an object whose members are handed to a check of their own. -/
def record {α : Type} (check : Fields Json → Checked α) : Check α
  | .obj members => check members
  | _ => .issue .record

/-- A field that must be present. -/
def required {α : Type} (members : Fields Json) (name : String) (check : Check α) : Checked α :=
  match members.get? name with
  | some v => (check v).under name
  | none => .faulty [⟨[name], .missing⟩]

/-- A field with a default. -/
def defaulted {α : Type} (members : Fields Json) (name : String) (default : α) (check : Check α) :
    Checked α :=
  match members.get? name with
  | some v => (check v).under name
  | none => .valid default

/-- One of the named choices. -/
def choice {α : Type} (ofName? : String → Option α) : Check α
  | .str s =>
    match ofName? s with
    | some a => .valid a
    | none => .issue .choice
  | _ => .issue .choice

/-- The text after an optional sign, and whether it was a minus. -/
def splitSign : List Char → Bool × List Char
  | '-' :: rest => (true, rest)
  | '+' :: rest => (false, rest)
  | s => (false, s)

/-- A decimal number: digits with an optional sign, point and exponent, or one of the words for what
is not finite. -/
def decimalNumber? (s : List Char) : Option Double :=
  let (negative, s) := splitSign s
  let word := s.map Char.toLower
  if word = ['i', 'n', 'f'] ∨ word = ['i', 'n', 'f', 'i', 'n', 'i', 't', 'y'] then
    some (.infinite negative)
  else if word = ['n', 'a', 'n'] then some .nan
  else
    let (whole, rest) := Decimal.spanDigits s
    let (fraction, rest) :=
      match rest with
      | '.' :: rest => Decimal.spanDigits rest
      | _ => ([], rest)
    (asciiNatural? (whole ++ fraction)).bind fun digits =>
      (Decimal.readExponent? rest).map fun exponent =>
        Double.ofDecimal negative digits (exponent - fraction.length)

/-- A decimal number in a text: either blanks around it or single underscores in it are allowed. -/
def decimal? (s : List Char) : Option Double :=
  (decimalNumber? (trimNumber s)).or ((dropUnderscores? s).bind decimalNumber?)

/-- The double nearest to an integer. -/
def doubleOfInt (n : Int) : Double :=
  Double.ofDecimal (n < 0) n.natAbs 0

/-- A double, or an integer, flag or text that stands for one. -/
def decimal : Check Double
  | .float x => .valid x
  | .int n => .valid (doubleOfInt n)
  | .bool b => .valid (doubleOfInt (if b then 1 else 0))
  | .str s =>
    match decimal? s.toList with
    | some x => .valid x
    | none => .issue .decimalText
  | _ => .issue .decimalText

end ReAct.Record
