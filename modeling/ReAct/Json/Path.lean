import ReAct.Json.Basic
import ReAct.Text.Blank
import ReAct.Text.Integer

/-!
# Paths into JSON values

A path is a list of steps: into the member of an object, to the element of a list, or over all
elements of a list. Reading a path never fails; what is absent is null. Over all elements, the rest
of the path is read on each, and the elements where it leads nowhere are left out.

In its written form a path may start with a dollar sign. Keys follow a dot, which may be missing,
indices and the wildcard stand in brackets, and characters that belong to no step are skipped.
-/

namespace ReAct.Json

open ReAct.Text

/-- One step of a path. -/
inductive Step where
  | key (name : String)
  | index (n : Nat)
  | every
  deriving DecidableEq

/-- Reads a path out of a value. -/
def walk : List Step → Json → Json
  | [], v => v
  | .key name :: rest, v => walk rest (v.member name)
  | .index n :: rest, .arr items => walk rest (items[n]?.getD .null)
  | .index _ :: rest, _ => walk rest .null
  | .every :: rest, .arr items => .arr ((items.map (walk rest)).filter fun v => !v.isNull)
  | .every :: _, _ => .null

/-- A character that may stand in a key. -/
def isKeyChar (c : Char) : Bool :=
  c ≠ '.' && c ≠ '[' && c ≠ ']'

/-- A step in brackets at the start of a text: decimal digits of any script, or a star. -/
def bracketStep? : List Char → Option (Step × List Char)
  | '[' :: '*' :: ']' :: rest => some (.every, rest)
  | '[' :: rest =>
    match rest.span isDigit with
    | ([], _) => none
    | (digits, ']' :: rest) => (readNatural? digits).map fun n => (.index n, rest)
    | _ => none
  | _ => none

/-- A key at the start of a text, as long as possible. -/
def keyStep? (s : List Char) : Option (Step × List Char) :=
  let s :=
    match s with
    | '.' :: rest => rest
    | _ => s
  match s.span isKeyChar with
  | ([], _) => none
  | (name, rest) => some (.key (String.ofList name), rest)

/-- The steps of a text, with a bound on their number and that of the skipped characters. -/
def stepsWithin : (bound : Nat) → List Char → List Step
  | 0, _ => []
  | _, [] => []
  | bound + 1, c :: s =>
    match bracketStep? (c :: s) with
    | some (step, rest) => step :: stepsWithin bound rest
    | none =>
      match keyStep? (c :: s) with
      | some (step, rest) => step :: stepsWithin bound rest
      | none => stepsWithin bound s

/-- The steps of a written path. -/
def steps (path : List Char) : List Step :=
  let s := trim path
  let s :=
    match s with
    | '$' :: rest => rest
    | _ => s
  stepsWithin s.length s

/-- Reads a written path out of a value; an empty path leads nowhere. -/
def readPath (v : Json) (path : String) : Json :=
  if path = "" then .null else walk (steps path.toList) v

/-- `readPath` where the path may be missing. -/
def readPath? (v : Json) : Option String → Json
  | none => .null
  | some path => v.readPath path

end ReAct.Json
