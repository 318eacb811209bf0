import ReAct.Json.Display
import ReAct.Json.Limits
import ReAct.Json.Printer
import ReAct.Json.Reader
import ReAct.Record.Check

/-!
# List sections of a prompt

A section of a prompt lists items, each between two delimiters and all of them between two more. No
items make no section. The items come from a parameter, which is a JSON list, the text of one, or
anything else, which is then the only item.

A parameter that exceeds the limits of the interpreter makes the section fail.
-/

namespace ReAct.Prompt

open Record

/-- The delimiters of a section: texts, or the values of the parameters that stand for them. -/
structure SectionFormat (α : Type := String) where
  opening : α
  closing : α
  itemOpening : α
  itemClosing : α

namespace SectionFormat

/-- Applies a function to every delimiter. -/
def map {α β : Type} (f : α → β) (format : SectionFormat α) : SectionFormat β where
  opening := f format.opening
  closing := f format.closing
  itemOpening := f format.itemOpening
  itemClosing := f format.itemClosing

/-- The section of some items. -/
def wrap (format : SectionFormat) (items : List String) : String :=
  if items.isEmpty then ""
  else
    format.opening ++
      String.join (items.map fun item => format.itemOpening ++ item ++ format.itemClosing) ++
      format.closing

/-- Reads the delimiters from an object. -/
def check : Check SectionFormat :=
  record fun members =>
    SectionFormat.mk <$> defaulted members "prefix" "" text
      <*> defaulted members "suffix" "" text
      <*> defaulted members "item_prefix" "" text
      <*> defaulted members "item_suffix" "" text

/-- The delimiters as an object. -/
def toJson (format : SectionFormat Json) : Json :=
  .obj
    [("prefix", format.opening), ("suffix", format.closing), ("item_prefix", format.itemOpening),
      ("item_suffix", format.itemClosing)]

end SectionFormat

/-- An item of a JSON list: a text as it is, everything else as its JSON text. -/
def itemText : Json → String
  | .str s => s
  | v => v.print Json.spacedAscii

/-- The items that a JSON value stands for: those of a list, otherwise the displayed value alone. -/
def itemsOfValue : Json → List String
  | .arr items => items.map itemText
  | v => [v.display]

/-- The items that a parameter stands for. -/
def itemsOf : Json → List String
  | .null => []
  | .str s =>
    if s = "" then []
    else
      match Json.read? s with
      | some v => itemsOfValue v
      | none => [s]
  | v => itemsOfValue v

/-- The section of a parameter. -/
def listSection (format : SectionFormat) (value : Json) : String :=
  format.wrap (itemsOf value)

/-- What is exceeded where the items of a JSON value are written. -/
def valueOverrun? (limits : Json.Limits) : Json → Option Json.Overrun
  | .arr items => items.findSome? limits.textOverrun?
  | v => limits.showOverrun? v

/-- What is exceeded where the items of a parameter are found. -/
def itemsOverrun? (limits : Json.Limits) : Json → Option Json.Overrun
  | .null => none
  | .str s =>
    if s = "" then none
    else
      limits.readOverrun? .refused s.toList <|>
        (Json.looseValue? .refused s.toList).bind (valueOverrun? limits)
  | v => valueOverrun? limits v

/-- The section of a parameter, if that keeps within the limits of the interpreter. -/
def listSectionWithin (limits : Json.Limits) (format : SectionFormat) (value : Json) :
    Except Failure String :=
  match itemsOverrun? limits value with
  | some overrun => .error overrun.failure
  | none => .ok (listSection format value)

end ReAct.Prompt
