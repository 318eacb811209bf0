import ReAct.Tool.Arguments

/-!
# Tool inputs, read by position

The lenient grammar of tool inputs says what is left of a text. Here the text stays whole and a
position moves through it: every character is asked for by its position, which may lie behind the
end of the text, and every loop goes on until its own condition ends it, however long that takes. So
a reading can go wrong in two ways that the grammar does not know: a character is asked for that is
not there, or a loop does not come to its end.

## Main definitions

* `Fault`: how a reading by position can go wrong
* `loop`: a loop that is given up after a number of rounds
* `read`, `arguments`: tool inputs and the arguments of a call, read by position
-/

namespace ReAct.Tool.ActionInput.Positional

open Text

/-- How a reading by position can go wrong. -/
inductive Fault where
  /-- A failure is raised. -/
  | raised (failure : Failure)
  /-- A loop goes on after the rounds that it was given. -/
  | unfinished

/-- Refuses a text for a reason that the grammar knows. -/
def refuse {α : Type} (e : Error) : Except Fault α :=
  .error (.raised e.failure)

/-- Takes steps until one has a result, in at most the given number of rounds. -/
def loop {σ α : Type} (step : σ → Except Fault (σ ⊕ α)) : (rounds : Nat) → σ → Except Fault α
  | 0, _ => .error .unfinished
  | rounds + 1, state =>
    (step state).bind fun
      | .inl state => loop step rounds state
      | .inr result => .ok result

section

variable (text : List Char) (rounds : Nat)

/-- The character at a position. -/
def charAt (i : Nat) : Except Fault Char :=
  match text[i]? with
  | some c => .ok c
  | none => .error (.raised ⟨.index, "string index out of range"⟩)

/-- The characters between two positions. -/
def slice (i j : Nat) : List Char :=
  (text.drop i).take (j - i)

/-- Whether a character stands at a position.  Behind the end none does. -/
def startsAt (c : Char) (i : Nat) : Bool :=
  (text.drop i).head? == some c

/-- The first position from `i` on at which `needle` stands. -/
def find? (needle : List Char) (i : Nat) : Option Nat :=
  (afterFirst? needle (text.drop i)).map fun rest => text.length - rest.length - needle.length

/-- One step over characters of a kind. -/
def scanStep (p : Char → Bool) (i : Nat) : Except Fault (Nat ⊕ Nat) :=
  if i < text.length then
    (charAt text i).bind fun c => .ok (if p c then .inl (i + 1) else .inr i)
  else .ok (.inr i)

/-- The first position from `i` on at which there is no character of the given kind. -/
def scanAt (p : Char → Bool) (i : Nat) : Except Fault Nat :=
  loop (scanStep text p) rounds i

/-- The first position from `i` on at which there is no blank. -/
def skipAt (i : Nat) : Except Fault Nat :=
  scanAt text rounds Json.isSpace i

/-- One character of a quoted text, behind what has been read of it. -/
def quotedStep (quote : Char) : Nat × List Char → Except Fault ((Nat × List Char) ⊕ List Char × Nat)
  | (i, read) =>
    if i < text.length then
      (charAt text i).bind fun c =>
        if c = '\\' ∧ i + 1 < text.length then
          (charAt text (i + 1)).bind fun d => .ok (.inl (i + 2, read ++ [d]))
        else if c = quote then .ok (.inr (read, i + 1))
        else .ok (.inl (i + 1, read ++ [c]))
    else refuse .unterminatedText

/-- The inside of the quoted text at a position, and the position behind it. -/
def quotedAt (i : Nat) : Except Fault (List Char × Nat) :=
  let opening := slice text i (i + 3)
  if opening = ['\'', '\'', '\''] ∨ opening = ['"', '"', '"'] then
    match find? text opening (i + 3) with
    | none => refuse .unterminatedTriple
    | some j => .ok (slice text (i + 3) j, j + 3)
  else
    (charAt text i).bind fun quote =>
      if isQuote quote then loop (quotedStep text quote) rounds (i + 1, [])
      else .error (.raised ⟨.toolInput, "expected quote at pos " ++ toString i⟩)

/-- One step of the search for a closing bracket. -/
def closingStep : Nat × List Char → Except Fault ((Nat × List Char) ⊕ Nat)
  | (i, stack) =>
    if i < text.length then
      (charAt text i).bind fun c =>
        if isQuote c then (quotedAt text rounds i).bind fun found => .ok (.inl (found.2, stack))
        else
          match bracket stack c with
          | some stack => .ok (.inl (i + 1, stack))
          | none => .ok (.inr (i + 1))
    else refuse .unbalanced

/-- The position behind the bracket that closes the one at a position. -/
def closingAt (i : Nat) : Except Fault Nat :=
  loop (closingStep text rounds) rounds (i, [])

/-- The quoted or bare name at a position, and the position behind it. -/
def nameAt (i : Nat) : Except Fault (List Char × Nat) :=
  (charAt text i).bind fun c =>
    if isQuote c then quotedAt text rounds i
    else
      (scanAt text rounds (fun c => c ≠ ':' && !Json.isSpace c) i).bind fun j =>
        .ok (slice text i j, j)

/-- The key at a position, and the position behind its colon. -/
def keyAt (i : Nat) : Except Fault (List Char × Nat) :=
  (skipAt text rounds i).bind fun i =>
  (nameAt text rounds i).bind fun (name, i) =>
  (skipAt text rounds i).bind fun i =>
    if i < text.length then
      (charAt text i).bind fun c =>
        if c = ':' then .ok (name, i + 1) else refuse (.missingColon name)
    else refuse (.missingColon name)

/-- The value at a position, and the position behind it. -/
def valueAt (i : Nat) : Except Fault (List Char × Nat) :=
  (skipAt text rounds i).bind fun i =>
    if i < text.length then
      (charAt text i).bind fun c =>
        if isQuote c then quotedAt text rounds i
        else if (closer? c).isSome then
          (closingAt text rounds i).bind fun j => .ok (slice text i j, j)
        else
          (scanAt text rounds (fun c => c ≠ ',' && c ≠ '\x7d') i).bind fun j =>
            .ok (trim (slice text i j), j)
    else refuse .endInValue

/-- The position behind a value and the comma that may follow it. -/
def commaAt (i : Nat) : Except Fault Nat :=
  (skipAt text rounds i).bind fun i =>
    if startsAt text ',' i then skipAt text rounds (i + 1) else .ok i

/-- One entry of an object, behind those that have been read. -/
def entryStep : Nat × Fields String → Except Fault ((Nat × Fields String) ⊕ Fields String)
  | (i, read) =>
    if startsAt text '\x7d' i then .ok (.inr read)
    else if text.length ≤ i then refuse .endInObject
    else
      (keyAt text rounds i).bind fun (k, i) =>
      (valueAt text rounds i).bind fun (v, i) =>
      (commaAt text rounds i).bind fun i =>
        .ok (.inl (i, read.put (String.ofList k) (String.ofList v)))

/-- The object at the start of a text. -/
def objectAt : Except Fault (Fields String) :=
  (skipAt text rounds 0).bind fun i =>
    if startsAt text '\x7b' i then
      (skipAt text rounds (i + 1)).bind fun i => loop (entryStep text rounds) rounds (i, [])
    else .error (.raised ⟨.toolInput, "object must start with '\x7b'"⟩)

end

/-- Reads a tool input by position. -/
def read (rounds : Nat) (input : String) : Except Fault (Fields String) :=
  let text := trim input.toList
  if startsAt text '\x7b' 0 then
    match Json.ofChars? .refused text with
    | some (.obj members) => .ok (Fields.mapValues delivered members)
    | some _ => refuse .notAnObject
    | none => objectAt text rounds
  else refuse .notAnObject

/-- The fields of an input that reads as an object.  An input that is refused has none; any other
fault is passed on. -/
def inputFields (rounds : Nat) : (actionInput : Option String) → Except Fault (Fields String)
  | none => .ok []
  | some input =>
    if startsAt (trimStart input.toList) '\x7b' 0 then
      match read rounds input with
      | .ok fields => .ok fields
      | .error (.raised failure) =>
        if failure.kind = .toolInput then .ok [] else .error (.raised failure)
      | .error .unfinished => .error .unfinished
    else .ok []

/-- The parameters of a call. -/
def arguments (rounds : Nat) (spec : Spec) (question : String) (actionInput : Option String) :
    Except Fault (Fields String) :=
  let params :=
    if spec.inputIsQuestion then spec.parameters.put "input" question
    else
      match actionInput with
      | some input => spec.parameters.put "input" input
      | none => spec.parameters
  (inputFields rounds actionInput).bind fun fields =>
    let params := params.merge (if spec.inputIsQuestion then fields.erase "input" else fields)
    let params :=
      match actionInput with
      | some input => params.put generatedInput input
      | none => params
    .ok (params.merge
      (spec.config.mapValues
        (Template.fill Template.parametersOpening params Template.Missing.stays)))

end ReAct.Tool.ActionInput.Positional
