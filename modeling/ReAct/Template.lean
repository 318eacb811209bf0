import ReAct.Fields
import ReAct.Text.Search

/-!
# Templates

A template is a text with placeholders. A placeholder is an opening, a key, optionally `:-` and a
default, and a closing brace; a key is not empty and holds neither a colon nor a closing brace, and
a default holds no closing brace. A template is cut once, from the left, into placeholders and the
characters between them, before any value is looked at. So inserted values are never examined.
-/

namespace ReAct.Template

open ReAct.Text

/-- A part of a template. -/
inductive Piece where
  /-- A character that stands for itself. -/
  | char (c : Char)
  /-- A placeholder. -/
  | hole (key : List Char) (default : Option (List Char))
  deriving DecidableEq

/-- A character that may stand in a key. -/
def isKeyChar (c : Char) : Bool :=
  c ≠ '\x7d' && c ≠ ':'

/-- A character that may stand in a default. -/
def isDefaultChar (c : Char) : Bool :=
  c ≠ '\x7d'

/-- What follows the key of a placeholder up to and with the closing brace. -/
def closing? : List Char → Option (Option (List Char) × List Char)
  | '\x7d' :: rest => some (none, rest)
  | ':' :: '-' :: rest =>
    match rest.span isDefaultChar with
    | (default, _ :: rest) => some (some default, rest)
    | (_, []) => none
  | _ => none

/-- The placeholder at the start of a text, with what follows it. -/
def hole? (opening s : List Char) : Option (Piece × List Char) :=
  (after? opening s).bind fun inside =>
    match inside.span isKeyChar with
    | ([], _) => none
    | (key, rest) => (closing? rest).map fun (default, rest) => (.hole key default, rest)

/-- Cuts a template, with a bound on the number of pieces. -/
def cutWithin (opening : List Char) : (bound : Nat) → List Char → List Piece
  | 0, _ => []
  | _, [] => []
  | bound + 1, c :: s =>
    match hole? opening (c :: s) with
    | some (piece, rest) => piece :: cutWithin opening bound rest
    | none => .char c :: cutWithin opening bound s

/-- Cuts a template. -/
def cut (opening template : List Char) : List Piece :=
  cutWithin opening template.length template

/-- A part of a template as it was written. -/
def Piece.source (opening : List Char) : Piece → List Char
  | .char c => [c]
  | .hole key none => opening ++ key ++ ['\x7d']
  | .hole key (some default) => opening ++ key ++ ':' :: '-' :: default ++ ['\x7d']

/-- What is done about a placeholder that has neither a value nor a default. -/
inductive Missing where
  /-- It stays as it was written. -/
  | stays
  /-- It vanishes, unless its key is one of those that are kept. -/
  | vanishes (kept : List String)

/-- The text that a part stands for. -/
def Piece.fill (opening : List Char) (value : String → Option (List Char)) (missing : Missing) :
    Piece → List Char
  | .char c => [c]
  | .hole key default =>
    match value (String.ofList key), default, missing with
    | some text, _, _ => text
    | none, some text, _ => text
    | none, none, .stays => Piece.source opening (.hole key none)
    | none, none, .vanishes kept =>
      if kept.contains (String.ofList key) then Piece.source opening (.hole key none) else []

/-- Fills every placeholder of a template. -/
def fillChars (opening : List Char) (value : String → Option (List Char)) (missing : Missing)
    (template : List Char) : List Char :=
  (cut opening template).flatMap (Piece.fill opening value missing)

/-- Fills the placeholders of a template from a table of texts. -/
def fill (opening : String) (values : Fields String) (missing : Missing) (template : String) :
    String :=
  String.ofList
    (fillChars opening.toList (fun key => (values.get? key).map String.toList) missing
      template.toList)

/-- What opens the placeholders of prompts and tool inputs. -/
def parametersOpening : String := "$\x7bparameters."

end ReAct.Template
