import ReAct.Failure
import ReAct.Text.Integer
import ReAct.Text.Quoted
import ReAct.Text.Search
import ReAct.Text.Style

/-!
# Endpoints

The address of a model is a pattern in which a field in braces stands for the model's name. Doubled
braces stand for braces. A field may ask for a single character of the name, for the name between
quotes, and for a style; the style is a pattern itself.

## Main definitions

* `Endpoint.Field.read?`: the field behind an opening brace, and what follows it.
* `Endpoint.fill`: the address of a model.
-/

namespace ReAct.Http.Endpoint

open ReAct.Text

/-- The name of the only field that a pattern may hold. -/
def modelField : List Char := "model_id".toList

/-- What is wrong with a pattern. -/
inductive Error where
  | unclosed
  | unclosedStyle
  | unfinishedConversion
  | longConversion
  | loneOpening
  | loneClosing
  | nestedOpening
  | nestedStyle
  | unknown (name : List Char)
  | position (n : Nat)
  | emptyStep
  | noStep
  | attribute (name : List Char)
  | item (name : List Char)
  | beyondEnd (n : Nat)
  | conversion (c : Char)
  | style (error : Style.Error)
  deriving DecidableEq

/-- The failure that an error amounts to. -/
def Error.failure : Error → Failure
  | .unclosed => ⟨.value, "expected '\x7d' before end of string"⟩
  | .unclosedStyle => ⟨.value, "unmatched '\x7b' in format spec"⟩
  | .unfinishedConversion => ⟨.value, "end of string while looking for conversion specifier"⟩
  | .longConversion => ⟨.value, "expected ':' after conversion specifier"⟩
  | .loneOpening => ⟨.value, "Single '\x7b' encountered in format string"⟩
  | .loneClosing => ⟨.value, "Single '\x7d' encountered in format string"⟩
  | .nestedOpening => ⟨.value, "unexpected '\x7b' in field name"⟩
  | .nestedStyle => ⟨.value, "Max string recursion exceeded"⟩
  | .unknown name => ⟨.key, String.ofList (quoted name)⟩
  | .position n =>
    ⟨.index, "Replacement index " ++ toString n ++ " out of range for positional args tuple"⟩
  | .emptyStep => ⟨.value, "Empty attribute in format string"⟩
  | .noStep => ⟨.value, "Only '.' or '[' may follow ']' in format field specifier"⟩
  | .attribute name => ⟨.attribute, "'str' object has no attribute " ++ String.ofList (quoted name)⟩
  | .item _ => ⟨.type, "string indices must be integers, not 'str'"⟩
  | .beyondEnd _ => ⟨.index, "string index out of range"⟩
  | .conversion c =>
    ⟨.value, "Unknown conversion specifier " ++ String.ofList (Style.charText c)⟩
  | .style error => ⟨.value, error.text⟩

/-- A field as it is written: what it names, whether that is converted, and the pattern of its
style. -/
structure Field where
  name : List Char
  conversion : Option Char := none
  style : List Char := []

/-- The name of a field, and the rest from the character on that ends the name. Inside brackets no
character does. -/
def readName (isBracketed : Bool) : List Char → Except Error (List Char × List Char)
  | [] => .error .unclosed
  | c :: rest =>
    if isBracketed then
      (readName (c ≠ ']') rest).map fun (name, rest) => (c :: name, rest)
    else if c = '\x7b' then .error .nestedOpening
    else if c = '\x7d' ∨ c = ':' ∨ c = '!' then .ok ([], c :: rest)
    else (readName (c = '[') rest).map fun (name, rest) => (c :: name, rest)

/-- The style of a field up to the brace that closes the field, and what follows the brace. `depth`
counts the braces that are open inside the style. -/
def readStyle (depth : Nat) : List Char → Except Error (List Char × List Char)
  | [] => .error .unclosedStyle
  | c :: rest =>
    if c = '\x7b' then (readStyle (depth + 1) rest).map fun (style, rest) => (c :: style, rest)
    else if c = '\x7d' then
      match depth with
      | 0 => .ok ([], rest)
      | depth + 1 => (readStyle depth rest).map fun (style, rest) => (c :: style, rest)
    else (readStyle depth rest).map fun (style, rest) => (c :: style, rest)

/-- The field behind an opening brace, and what follows it. -/
def Field.read? (s : List Char) : Except Error (Field × List Char) := do
  let (name, rest) ← readName false s
  match rest with
  | [] => throw .unclosed
  | '!' :: [] => throw .unfinishedConversion
  | '!' :: _ :: [] => throw .unclosedStyle
  | '!' :: c :: '\x7d' :: rest => return ({ name, conversion := some c }, rest)
  | '!' :: c :: ':' :: rest =>
    let (style, rest) ← readStyle 0 rest
    return ({ name, conversion := some c, style }, rest)
  | '!' :: _ => throw .longConversion
  | ':' :: rest =>
    let (style, rest) ← readStyle 0 rest
    return ({ name, style }, rest)
  | _ :: rest => return ({ name }, rest)

/-- The number that a step denotes, if it is digits only. -/
def stepNumber? (s : List Char) : Option Nat :=
  if s.all isDigit then readNatural? s else none

/-- Takes the steps behind a field's first name, with a bound on their number. -/
def takeSteps (value : List Char) : (bound : Nat) → List Char → Except Error (List Char)
  | 0, _ => .ok value
  | _, [] => .ok value
  | _ + 1, '.' :: rest =>
    match rest.takeWhile fun c => c ≠ '.' && c ≠ '[' with
    | [] => .error .emptyStep
    | name => .error (.attribute name)
  | bound + 1, '[' :: rest =>
    match rest.span (· ≠ ']') with
    | ([], _) => .error .emptyStep
    | (name, rest) =>
      match stepNumber? name with
      | none => .error (.item name)
      | some n =>
        match value[n]? with
        | none => .error (.beyondEnd n)
        | some c => takeSteps [c] bound (rest.drop 1)
  | _ + 1, _ => .error .noStep

/-- What a field's name stands for. -/
def nameValue (model name : List Char) : Except Error (List Char) :=
  match name.span fun c => c ≠ '.' && c ≠ '[' with
  | ([], _) => .error (.position 0)
  | (first, steps) =>
    match stepNumber? first with
    | some n => .error (.position n)
    | none =>
      if first = modelField then takeSteps model steps.length steps else .error (.unknown first)

/-- Converts the value of a field. -/
def convert (value : List Char) : Option Char → Except Error (List Char)
  | none => .ok value
  | some c =>
    if c = 's' then .ok value
    else if c = 'r' then .ok (quoted value)
    else if c = 'a' then .ok (quotedAscii value)
    else .error (.conversion c)

/-- The text of a field; `expand` fills the pattern of its style. -/
def Field.text (model : List Char) (expand : List Char → Except Error (List Char)) (field : Field) :
    Except Error (List Char) := do
  let value ← nameValue model field.name
  let value ← convert value field.conversion
  let style ← if field.style.contains '\x7b' then expand field.style else pure field.style
  if style.isEmpty then return value
  match (Style.read? style).bind fun style => style.apply value with
  | .ok value => return value
  | .error error => throw (.style error)

/-- Fills a pattern, with a bound on the number of its parts. -/
def fillWith (model : List Char) (expand : List Char → Except Error (List Char)) :
    (bound : Nat) → List Char → Except Error (List Char)
  | 0, _ => .ok []
  | _, [] => .ok []
  | bound + 1, '\x7b' :: '\x7b' :: s =>
    (fillWith model expand bound s).map fun rest => '\x7b' :: rest
  | bound + 1, '\x7d' :: '\x7d' :: s =>
    (fillWith model expand bound s).map fun rest => '\x7d' :: rest
  | _, ['\x7b'] => .error .loneOpening
  | _, '\x7d' :: _ => .error .loneClosing
  | bound + 1, '\x7b' :: s => do
    let (field, s) ← Field.read? s
    let value ← field.text model expand
    let rest ← fillWith model expand bound s
    return value ++ rest
  | bound + 1, c :: s => (fillWith model expand bound s).map fun rest => c :: rest

/-- Fills the pattern of a style, whose own fields have no such patterns. -/
def fillStyle (model pattern : List Char) : Except Error (List Char) :=
  fillWith model (fun _ => .error .nestedStyle) pattern.length pattern

/-- The address of a model. -/
def fill (pattern model : String) : Except Failure String :=
  match fillWith model.toList (fillStyle model.toList) pattern.length pattern.toList with
  | .ok s => .ok (String.ofList s)
  | .error e => .error e.failure

end ReAct.Http.Endpoint
