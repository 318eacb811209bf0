import ReAct.Failure
import ReAct.Json.Printer
import ReAct.Json.Reader
import ReAct.Text.Blank
import ReAct.Text.Search

/-!
# Tool inputs written by a model

A tool input is an object, and every value of it is delivered as a text. Strict JSON is read as
JSON: texts as themselves, everything else as its JSON text. What is not JSON is read leniently, by
a shallow grammar: keys and values in single, double or triple quotes, bare keys up to a colon or a
blank, bare values up to a comma or the closing brace, and nested lists and objects as their own
text, of which only the brackets and the quotes are followed.
-/

namespace ReAct.Tool.ActionInput

open ReAct.Text

/-- Why a text is no tool input. -/
inductive Error where
  | notAnObject
  | unterminatedTriple
  | unterminatedText
  | unbalanced
  | missingColon (key : List Char)
  | endInValue
  | endInObject
  deriving DecidableEq

/-- The text of an error. -/
def Error.text : Error → String
  | .notAnObject => "action input is not an object"
  | .unterminatedTriple => "unterminated triple-quoted string"
  | .unterminatedText => "unterminated string literal"
  | .unbalanced => "unbalanced brackets"
  | .missingColon key => "missing ':' after key " ++ String.ofList (quoted key)
  | .endInValue => "unexpected end of input while reading value"
  | .endInObject => "unexpected end of input in object"

/-- The failure that an error amounts to. -/
def Error.failure (e : Error) : Failure :=
  ⟨.toolInput, e.text⟩

/-- The quotes. -/
def isQuote (c : Char) : Bool :=
  c = '\'' || c = '"'

/-- The closing bracket of an opening one. -/
def closer? (c : Char) : Option Char :=
  if c = '\x7b' then some '\x7d' else if c = '[' then some ']' else none

/-- The text without its leading JSON blanks. -/
def skip (s : List Char) : List Char :=
  s.dropWhile Json.isSpace

/-- The inside of a triple-quoted text, and what follows its closing quotes. -/
def untilTriple (quote : Char) : List Char → Except Error (List Char × List Char)
  | [] => .error .unterminatedTriple
  | c :: s =>
    match after? [quote, quote, quote] (c :: s) with
    | some rest => .ok ([], rest)
    | none => (untilTriple quote s).map fun (inside, rest) => (c :: inside, rest)

/-- The inside of a quoted text, and what follows its closing quote. A back-slash stands for the
character behind it; at the very end it stands for itself. -/
def untilQuote (quote : Char) : List Char → Except Error (List Char × List Char)
  | [] => .error .unterminatedText
  | '\\' :: c :: s => (untilQuote quote s).map fun (inside, rest) => (c :: inside, rest)
  | c :: s =>
    if c = quote then .ok ([], s)
    else (untilQuote quote s).map fun (inside, rest) => (c :: inside, rest)

/-- The inside of a text that starts with the given quote, of which the rest is given. -/
def afterQuote (quote : Char) (s : List Char) : Except Error (List Char × List Char) :=
  match after? [quote, quote] s with
  | some s => untilTriple quote s
  | none => untilQuote quote s

/-- The brackets that are open behind a character that is no quote, unless the search ends there. -/
def bracket (stack : List Char) (c : Char) : Option (List Char) :=
  match closer? c, stack with
  | some close, _ => some (close :: stack)
  | none, [] => some []
  | none, close :: outer =>
    if c = close then if outer.isEmpty then none else some outer else some stack

/-- Follows brackets and quotes up to the bracket that closes the last one of `stack`, with a bound
on the number of steps. The result is what follows. -/
def closeWithin : (bound : Nat) → (stack : List Char) → List Char → Except Error (List Char)
  | 0, _, _ => .error .unbalanced
  | _, _, [] => .error .unbalanced
  | bound + 1, stack, c :: s =>
    if isQuote c then
      match afterQuote c s with
      | .error e => .error e
      | .ok (_, rest) => closeWithin bound stack rest
    else
      match bracket stack c with
      | some stack => closeWithin bound stack s
      | none => .ok s

/-- A nested list or object at the start of a text, as its own text, and what follows it. -/
def nested (s : List Char) : Except Error (List Char × List Char) :=
  (closeWithin s.length [] s).map fun rest => (s.take (s.length - rest.length), rest)

/-- The key at the start of a text, which is quoted or bare, and what follows it. -/
def key (s : List Char) : Except Error (List Char × List Char) :=
  match s with
  | [] => .ok ([], [])
  | c :: rest =>
    if isQuote c then afterQuote c rest
    else .ok (s.span fun c => c ≠ ':' && !Json.isSpace c)

/-- The value at the start of a text, and what follows it. -/
def value (s : List Char) : Except Error (List Char × List Char) :=
  match s with
  | [] => .error .endInValue
  | c :: rest =>
    if isQuote c then afterQuote c rest
    else if (closer? c).isSome then nested s
    else
      let (bare, rest) := s.span fun c => c ≠ ',' && c ≠ '\x7d'
      .ok (trim bare, rest)

/-- One entry at the start of a text, and what follows it and an optional comma. -/
def entry (s : List Char) : Except Error ((List Char × List Char) × List Char) :=
  match key s with
  | .error e => .error e
  | .ok (k, rest) =>
    match skip rest with
    | ':' :: rest =>
      match value (skip rest) with
      | .error e => .error e
      | .ok (v, rest) =>
        match skip rest with
        | ',' :: rest => .ok ((k, v), skip rest)
        | rest => .ok ((k, v), rest)
    | _ => .error (.missingColon k)

/-- The entries up to the closing brace, with a bound on their number. -/
def entriesWithin : (bound : Nat) → Fields String → List Char → Except Error (Fields String)
  | 0, _, _ => .error .endInObject
  | _, _, [] => .error .endInObject
  | bound + 1, read, c :: s =>
    if c = '\x7d' then .ok read
    else
      match entry (c :: s) with
      | .error e => .error e
      | .ok ((k, v), rest) =>
        entriesWithin bound (read.put (String.ofList k) (String.ofList v)) rest

/-- Reads an object by the lenient grammar, given the text behind its opening brace. -/
def lenient (s : List Char) : Except Error (Fields String) :=
  entriesWithin (s.length + 1) [] (skip s)

/-- The text in which a value of strict JSON is delivered. -/
def delivered : Json → String
  | .str s => s
  | v => v.print Json.spaced

/-- Reads a tool input. -/
def read (input : String) : Except Error (Fields String) :=
  match trim input.toList with
  | '\x7b' :: inside =>
    match Json.ofChars? .refused ('\x7b' :: inside) with
    | some (.obj members) => .ok (Fields.mapValues delivered members)
    | some _ => .error .notAnObject
    | none => lenient inside
  | _ => .error .notAnObject

end ReAct.Tool.ActionInput
