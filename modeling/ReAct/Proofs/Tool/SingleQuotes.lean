import ReAct.Proofs.Json.Nesting
import ReAct.Proofs.Tool.Entries

/-!
# Objects in single quotes

An object is often written with its names and texts between single quotes, and with the JSON text of
nested lists and objects.  Whatever its names, texts and containers are, it is read as it was: the
same names in the same order, every text unchanged, every container as its own text
(`read_written`).

## Main Definitions

* `Value`: the values of such an object
* `written`: its text
-/

namespace ReAct.Tool.ActionInput.SingleQuotes

/-- A value of an object: a text, or a nested list or object. -/
inductive Value where
  | text (s : String)
  | list (items : List Json)
  | object (members : Fields Json)

/-- A value as it is written: a text in single quotes, a container as its JSON text. -/
def Value.chars (layout : Json.Layout) : Value → List Char
  | .text s => singleQuoted s.toList
  | .list items => Json.chars layout (.arr items)
  | .object members => Json.chars layout (.obj members)

/-- A value as it is delivered: a text as it is, a container as its JSON text. -/
def Value.delivered (layout : Json.Layout) : Value → String
  | .text s => s
  | .list items => (Json.arr items).print layout
  | .object members => (Json.obj members).print layout

/-- An entry as it is written. -/
def entryChars (layout : Json.Layout) (entry : String × Value) : List Char :=
  singleQuoted entry.1.toList ++ [':', ' '] ++ entry.2.chars layout

/-- The text of an object. -/
def written (layout : Json.Layout) (fields : Fields Value) : String :=
  String.ofList
    ('\x7b' :: [',', ' '].intercalate (fields.map (entryChars layout)) ++ ['\x7d'])

variable {layout : Json.Layout}

/-- A value as it is written is read as what is delivered of it. -/
theorem isValue_chars (hlayout : layout.Plain) (v : Value) :
    IsValue (v.chars layout) (v.delivered layout).toList := by
  cases v with
  | text s => exact (isQuoted_singleQuoted s.toList).isValue
  | list items =>
      show IsValue _ ((Json.arr items).print layout).toList
      rw [Json.print, String.toList_ofList]
      exact isValue_of_passedOver rfl (passedOver_items hlayout items)
  | object members =>
      show IsValue _ ((Json.obj members).print layout).toList
      rw [Json.print, String.toList_ofList]
      exact isValue_of_passedOver rfl (passedOver_members hlayout members)

/-- So is an entry. -/
theorem isEntry_entryChars (hlayout : layout.Plain) (entry : String × Value) :
    IsEntry (entryChars layout entry) (entry.1, entry.2.delivered layout) :=
  isEntry_of_isQuoted (isQuoted_singleQuoted entry.1.toList) (isValue_chars hlayout entry.2) 1

/-- No JSON object begins with a single quote. -/
theorem ofChars?_singleQuote (controls : Json.Controls) (rest : List Char) :
    Json.ofChars? controls ('\x7b' :: '\'' :: rest) = none := by
  have hfault : ∀ v, (Json.dueAfter [.openBrace]).step (.scalar v) = .fault := fun _ => rfl
  exact @Json.hopeless_word controls [.openBrace] ['\''] (fun _ v _ => hfault v) rest

/-- The empty object is read strictly. -/
theorem read_empty : read (String.ofList ['\x7b', '\x7d']) = .ok [] := by
  have hvalue : Json.ofChars? .refused ['\x7b', '\x7d'] = some (.obj []) := rfl
  refine read_of_object ?_ hvalue
  rw [String.toList_ofList]
  exact trim_braced []

/-- **What is written in single quotes is read as it was.** -/
theorem read_written (hlayout : layout.Plain) {fields : Fields Value}
    (hnames : fields.names.Nodup) :
    read (written layout fields) = .ok (fields.mapValues (Value.delivered layout)) := by
  by_cases hne : fields = []
  · subst hne
    exact read_empty
  have hnone : Json.ofChars? .refused
      ('\x7b' :: [',', ' '].intercalate (fields.map (entryChars layout)) ++ ['\x7d']) = none := by
    obtain ⟨entry, rest, rfl⟩ := List.exists_cons_of_ne_nil hne
    obtain ⟨more, hmore⟩ :=
      Text.prefix_intercalate [',', ' '] (entryChars layout entry) (rest.map (entryChars layout))
    rw [List.map_cons, ← hmore]
    exact ofChars?_singleQuote .refused _
  have hentries := lenient_intercalate (isEntry_entryChars hlayout) 1 (.inr rfl)
    (rfl : behindComma ['\x7d'] = ['\x7d']) hne
  have hdistinct : (fields.mapValues (Value.delivered layout)).names.Nodup := by
    rw [Fields.names_mapValues]
    exact hnames
  rw [written, read_braced hnone]
  exact hentries.trans (congrArg Except.ok (Fields.ofEntries_of_nodup hdistinct))

/-- An empty name, a text with quotes and a back-slash, and a list with marks in its texts. -/
def marked : Fields Value :=
  [("", .text "it's a \\ and \", \x7d"), ("k'\x7d", .list [.str "]'\"", .obj [("", .null)]])]

/-- It is written in single quotes and read again. -/
theorem read_marked :
    marked.names.Nodup ∧
      read
          "\x7b'': 'it\\'s a \\\\ and \", \x7d', 'k\\'\x7d': [\"]'\\\"\", \x7b\"\": null\x7d]\x7d" =
        .ok [("", "it's a \\ and \", \x7d"), ("k'\x7d", "[\"]'\\\"\", \x7b\"\": null\x7d]")] := by
  have hnames : marked.names.Nodup := by decide +kernel
  have htext : written Json.spacedAscii marked =
      "\x7b'': 'it\\'s a \\\\ and \", \x7d', 'k\\'\x7d': [\"]'\\\"\", \x7b\"\": null\x7d]\x7d" := by
    decide +kernel
  have hdelivered : marked.mapValues (Value.delivered Json.spacedAscii) =
      [("", "it's a \\ and \", \x7d"), ("k'\x7d", "[\"]'\\\"\", \x7b\"\": null\x7d]")] := by
    decide +kernel
  refine ⟨hnames, ?_⟩
  rw [← htext, ← hdelivered]
  exact read_written Json.spacedAscii_plain hnames

end ReAct.Tool.ActionInput.SingleQuotes
