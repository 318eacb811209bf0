import ReAct.Fields
import ReAct.Json.Reader
import ReAct.Reply.Block
import ReAct.Text.Blank

/-!
# Salvaging fields from broken JSON

When the block of a reply is no JSON, the fields of a decision are looked up in it one by one: the
name in double quotes, a colon, and a value. The thought, the action and a quoted input end at the
first quote that is not escaped. The answer may hold such quotes: it ends at the last quote that is
followed by a closing brace, and if there is none, at the end of the text.
-/

namespace ReAct.Reply.Salvage

open ReAct.Text

/-- What follows a field's name, colon and blanks at the start of a text. -/
def header? (name : List Char) (s : List Char) : Option (List Char) :=
  (after? ('"' :: name ++ ['"']) s).bind fun rest =>
    match trimStart rest with
    | ':' :: rest => some (trimStart rest)
    | _ => none

/-- What follows the header and the opening quote of a field at the start of a text. -/
def quotedHeader? (name : List Char) (s : List Char) : Option (List Char) :=
  (header? name s).bind (after? ['"'])

/-- The inside of a literal up to the first quote that is not escaped. A line break cannot be
escaped. -/
def literal? : List Char → Option (List Char)
  | [] => none
  | '\\' :: c :: s => if c = '\n' then none else (literal? s).map fun inside => '\\' :: c :: inside
  | c :: s =>
    if c = '"' then some []
    else if c = '\\' then none
    else (literal? s).map fun inside => c :: inside

/-- The text that the inside of a literal denotes. Where it denotes none, only its escaped quotes
are replaced. -/
def decoded (inside : List Char) : String :=
  match Json.ofChars? .allowed ('"' :: inside ++ ['"']) with
  | some (.str s) => s
  | _ => String.ofList (replaceAll '\\' ['"'] ['"'] inside)

/-- A field whose value is a literal. -/
def textField? (name : String) (s : List Char) : Option String :=
  (first? (fun s => (quotedHeader? name.toList s).bind literal?) s).map decoded

/-- The input of an action: a block, which may lack its end, or a literal. -/
def inputField? (s : List Char) : Option String :=
  (first? (header? "action_input".toList) s).bind fun rest =>
    match rest with
    | '\x7b' :: _ => some (String.ofList (((blockAt rest).map Prod.fst).getD rest))
    | '"' :: rest => (literal? rest).map decoded
    | _ => none

/-- Whether a text starts with a quote that, over blanks, is followed by a closing brace. -/
def closesObject (s : List Char) : Option Unit :=
  match s with
  | '"' :: rest =>
    match trimStart rest with
    | '\x7d' :: _ => some ()
    | _ => none
  | _ => none

/-- A text without its trailing blanks and without the quote before them. -/
def openEnd (s : List Char) : List Char :=
  let trimmed := trimEnd s
  if trimmed.getLast? = some '"' then trimmed.dropLast else trimmed

/-- The answer. -/
def answerField? (s : List Char) : Option String :=
  (first? (quotedHeader? "final_answer".toList) s).map fun rest =>
    match last? closesObject rest with
    | some (inside, ()) => decoded inside
    | none => decoded (openEnd rest)

/-- The fields that can be found. -/
def fields (s : List Char) : Fields String :=
  [("thought", textField? "thought" s), ("action", textField? "action" s),
      ("action_input", inputField? s), ("final_answer", answerField? s)].filterMap
    fun (name, found) => found.map fun value => (name, value)

end ReAct.Reply.Salvage
