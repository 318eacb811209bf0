import ReAct.Proofs.Decimal.Layout
import ReAct.Proofs.Fields
import ReAct.Proofs.Json.Literal

/-!
# Reading a value that was written

A value whose objects have distinct names is read back from its text as it was, number by number and
member by member (`ofChars?_chars`).  The text may have blanks after commas and colons, and it may
stand inside of a larger text: what is proved by induction is that reading it delivers the value to
whatever waits for one.

## Main Definitions

* `Distinct`: a value in which no object has two members of one name
* `Layout.Plain`: the layouts with nothing but blanks after commas and colons
* `Scan.Between`, `Scan.Stands`: what is due in a state of the scanner
-/

namespace ReAct.Json

open Text

/-- A value in which no object has two members of one name. -/
inductive Distinct : Json → Prop
  | null : Distinct .null
  | bool (value : Bool) : Distinct (.bool value)
  | int (value : Int) : Distinct (.int value)
  | float (value : Double) : Distinct (.float value)
  | str (value : String) : Distinct (.str value)
  | arr {items : List Json} (h : ∀ v ∈ items, Distinct v) : Distinct (.arr items)
  | obj {members : List (String × Json)} (hnames : (Fields.names members).Nodup)
      (h : ∀ entry ∈ members, Distinct entry.2) : Distinct (.obj members)

@[simp] theorem distinct_str (s : String) : (Json.str s).Distinct := .str s

@[simp] theorem distinct_arr {items : List Json} :
    (Json.arr items).Distinct ↔ ∀ v ∈ items, v.Distinct :=
  ⟨fun | .arr h => h, .arr⟩

@[simp] theorem distinct_obj {members : Fields Json} :
    (Json.obj members).Distinct ↔
      (Fields.names members).Nodup ∧ ∀ entry ∈ members, entry.2.Distinct :=
  ⟨fun | .obj hnames h => ⟨hnames, h⟩, fun h => .obj h.1 h.2⟩

/-- Texts under distinct names make an object of this kind. -/
theorem distinct_ofTextFields {fields : Fields String} (hnames : fields.names.Nodup) :
    (ofTextFields fields).Distinct := by
  refine .obj (by rwa [Fields.names_mapValues]) fun entry hentry => ?_
  obtain ⟨field, -, rfl⟩ := List.mem_map.mp hentry
  exact .str field.2

/-- A layout with nothing but blanks after commas and colons. -/
def Layout.Plain (layout : Layout) : Prop :=
  ∃ m n, layout.betweenItems = ',' :: List.replicate m ' ' ∧
    layout.afterName = ':' :: List.replicate n ' '

theorem spaced_plain : spaced.Plain := ⟨1, 1, rfl, rfl⟩

theorem spacedAscii_plain : spacedAscii.Plain := ⟨1, 1, rfl, rfl⟩

theorem compact_plain : compact.Plain := ⟨0, 0, rfl, rfl⟩

/-! ## Words -/

/-- The characters that end a word. -/
def wordEnds : List Char :=
  [' ', '\n', '\r', '\t', '"', '\x7b', '\x7d', '[', ']', ':', ',']

/-- The characters that end a word can be listed. -/
theorem mem_wordEnds {c : Char} (h : endsWord c = true) : c ∈ wordEnds := by
  unfold endsWord isSpace punctuation? at h
  unfold wordEnds
  repeat' split at h
  all_goals simp_all [or_assoc]

/-- The characters with which a word may begin. -/
theorem wordValue?_of_head {c : Char} (hdigit : isAsciiDigit c = false)
    (hc : c ∉ ['n', 't', 'f', 'N', 'I', '-']) (rest : List Char) :
    wordValue? (c :: rest) = none := by
  simp only [List.mem_cons, List.not_mem_nil, or_false, not_or] at hc
  obtain ⟨hn, ht, hf, hN, hI, hminus⟩ := hc
  simp [wordValue?, hn, ht, hf, hN, hI, hminus, Decimal.readNumber?_of_head hdigit hminus]

/-- The words of a value: its characters do not end a word, and it denotes the value. -/
structure IsWord (word : List Char) (v : Json) : Prop where
  value : wordValue? word = some v
  chars : ∀ c ∈ word, endsWord c = false

/-- A number as a value. -/
def ofNumber : Decimal.Number → Json
  | .int value => .int value
  | .float value => .float value

/-- The text of a number is a word, since none of its characters ends one. -/
theorem isWord_of_number {word : List Char} {number : Decimal.Number}
    (hread : Decimal.readNumber? word = some number)
    (hchars : ∀ c ∈ word, Decimal.isNumberChar c) : IsWord word (ofNumber number) := by
  -- A number is none of the words that are spelled out: each of them has a character that no number
  -- has.
  have hnone (other : List Char) (hother : other.any fun c => !Decimal.isNumberChar c) :
      word ≠ other := by
    rintro rfl
    obtain ⟨c, hc, hnot⟩ := List.any_eq_true.mp hother
    rw [hchars c hc] at hnot
    cases hnot
  constructor
  · rw [wordValue?, if_neg (hnone _ rfl), if_neg (hnone _ rfl), if_neg (hnone _ rfl),
      if_neg (hnone _ rfl), if_neg (hnone _ rfl), if_neg (hnone _ rfl), hread]
    rfl
  · intro c hc
    cases hends : endsWord c with
    | false => rfl
    | true =>
        have hall : wordEnds.all fun c => !Decimal.isNumberChar c := rfl
        have hnot := List.all_eq_true.mp hall c (mem_wordEnds hends)
        rw [hchars c hc] at hnot
        cases hnot

/-- A word that is spelled out. -/
theorem isWord_of_spelled {word : List Char} {v : Json} (hvalue : wordValue? word = some v)
    (hchars : word.any endsWord = false) : IsWord word v :=
  ⟨hvalue, fun c hc => Bool.eq_false_iff.mpr fun hends => by
    rw [List.any_eq_true.mpr ⟨c, hc, hends⟩] at hchars
    cases hchars⟩

theorem isWord_null : IsWord ['n', 'u', 'l', 'l'] .null :=
  isWord_of_spelled rfl rfl

theorem isWord_true : IsWord ['t', 'r', 'u', 'e'] (.bool true) :=
  isWord_of_spelled rfl rfl

theorem isWord_false : IsWord ['f', 'a', 'l', 's', 'e'] (.bool false) :=
  isWord_of_spelled rfl rfl

theorem isWord_integer (n : Int) : IsWord (integer n) (.int n) :=
  isWord_of_number (Decimal.readNumber?_integer n) (Decimal.integer_isNumberChar n)

/-- The text of a floating-point number is a word, the three that are no numbers included. -/
theorem isWord_float (x : Double) : IsWord (Decimal.text Decimal.jsonLayout x) (.float x) := by
  cases x with
  | finite negative rank =>
      exact isWord_of_number (Decimal.readNumber?_text _ negative rank)
        (Decimal.text_isNumberChar _ negative rank)
  | infinite negative => cases negative <;> exact isWord_of_spelled rfl rfl
  | nan => exact isWord_of_spelled rfl rfl

/-! ## What is due in a state -/

/-- A state between tokens in which the given thing is due. -/
def Scan.Between (due : Due) (s : Scan) : Prop :=
  s.mode = .between ∧ dueAfter s.tokens = due

/-- A state in which the given thing is due, between tokens or behind the word that makes it so. -/
inductive Scan.Stands (due : Due) : Scan → Prop
  | between {s : Scan} (h : s.Between due) : Stands due s
  | word {tokens : List Token} {word : List Char} {v : Json}
      (hvalue : wordValue? word.reverse = some v) (h : (dueAfter tokens).step (.scalar v) = due) :
      Stands due ⟨tokens, .word word⟩

theorem Scan.between_start : Scan.start.Between (.value false []) :=
  ⟨rfl, rfl⟩

/-- Where a value is complete and at most a word is open, the value is that of the text. -/
theorem Scan.Stands.value?_eq {v : Json} {s : Scan} (h : s.Stands (.nothing v)) :
    s.value? = some v := by
  cases h with
  | @between s h =>
      obtain ⟨tokens, mode⟩ := s
      obtain ⟨hmode, hdue⟩ := h
      cases hmode
      rw [value?_between]
      exact congrArg Due.value? hdue
  | word hvalue h => rw [value?_word, hvalue, Option.bind_some, dueAfter_cons, h]; rfl

/-- A punctuation character ends a word, if there is one, and is a token. -/
theorem Scan.Stands.punctuation (controls : Controls) {due : Due} {s : Scan} (h : s.Stands due)
    {c : Char} {token : Token} (hc : punctuation? c = some token) :
    (s.step controls c).Between (due.step token) := by
  cases h with
  | @between s h =>
      obtain ⟨tokens, mode⟩ := s
      obtain ⟨hmode, hdue⟩ := h
      cases hmode
      rw [step_between, stepBetween_punctuation tokens hc]
      exact ⟨rfl, congrArg (fun due => Due.step due token) hdue⟩
  | @word tokens word v hvalue h =>
      have hends : endsWord c = true := by simp [endsWord, hc]
      rw [step_word_end controls tokens hends hvalue, stepBetween_punctuation _ hc]
      exact ⟨rfl, congrArg (fun due => Due.step due token) h⟩

/-- Spaces change nothing, however many there are. -/
theorem Scan.Between.spaces (controls : Controls) {due : Due} (n : Nat) :
    ∀ {s : Scan}, s.Between due →
      ((List.replicate n ' ').foldl (Scan.step controls) s).Between due := by
  induction n with
  | zero => exact fun h => h
  | succ n ih =>
      rintro ⟨tokens, mode⟩ ⟨hmode, hdue⟩
      cases hmode
      rw [List.replicate_succ, List.foldl_cons, step_between, stepBetween_space tokens rfl]
      exact ih ⟨rfl, hdue⟩

/-- A literal delivers its text to whatever waits for one. -/
theorem Scan.Between.text (controls : Controls) (asciiOnly : Bool) {due : Due} {s : Scan}
    (h : s.Between due) (t : String) :
    ((literal asciiOnly t.toList).foldl (Scan.step controls) s).Between (due.step (.text t)) := by
  obtain ⟨tokens, mode⟩ := s
  obtain ⟨hmode, hdue⟩ := h
  cases hmode
  rw [scan_literal]
  exact ⟨rfl, congrArg (fun due => Due.step due (.text t)) hdue⟩

/-- A literal that was not escaped, where control characters are allowed. -/
theorem Scan.Between.raw {due : Due} {s : Scan} (h : s.Between due) {text : List Char}
    (hquote : '"' ∉ text) (hslash : '\\' ∉ text) :
    (('"' :: text ++ ['"']).foldl (Scan.step .allowed) s).Between
      (due.step (.text (String.ofList text))) := by
  obtain ⟨tokens, mode⟩ := s
  obtain ⟨hmode, hdue⟩ := h
  cases hmode
  rw [List.cons_append, List.foldl_cons, List.foldl_append, step_between, stepBetween_quote,
    scan_raw tokens hquote hslash, List.append_nil, List.foldl_cons, step_quote,
    List.reverse_reverse]
  exact ⟨rfl, congrArg (fun due => Due.step due (.text (String.ofList text))) hdue⟩

/-- A word delivers its value, if only when something ends it. -/
theorem Scan.Between.word (controls : Controls) {due : Due} {s : Scan} (h : s.Between due)
    {word : List Char} {v : Json} (hword : IsWord word v) :
    (word.foldl (Scan.step controls) s).Stands (due.step (.scalar v)) := by
  obtain ⟨tokens, mode⟩ := s
  obtain ⟨hmode, hdue⟩ := h
  cases hmode
  have hne : word ≠ [] := by
    rintro rfl
    cases hword.value
  rw [scan_word controls tokens hne hword.chars]
  exact .word (by rw [List.reverse_reverse, hword.value])
    (congrArg (fun due => Due.step due (.scalar v)) hdue)

/-! ## Values -/

/-- The text of a value delivers the value to whatever waits for one. -/
def Reads (controls : Controls) (layout : Layout) (v : Json) : Prop :=
  ∀ (s : Scan) (fresh : Bool) (stack : List Frame), s.Between (.value fresh stack) →
    ((chars layout v).foldl (Scan.step controls) s).Stands (deliver v stack)

/-- A value that is a word is read. -/
theorem reads_word {controls : Controls} {layout : Layout} {v : Json}
    (h : IsWord (chars layout v) v) : Reads controls layout v := by
  intro s fresh stack hs
  exact hs.word controls h

theorem reads_str (controls : Controls) (layout : Layout) (t : String) :
    Reads controls layout (.str t) := by
  intro s fresh stack hs
  exact .between (hs.text controls layout.asciiOnly t)

/-- What stands between two items, or after a name: punctuation and blanks. -/
theorem scan_separator (controls : Controls) {c : Char} {token : Token} {separator : List Char}
    {n : Nat} (hc : punctuation? c = some token)
    (hseparator : separator = c :: List.replicate n ' ')
    {due : Due} {s : Scan} (h : s.Stands due) :
    (separator.foldl (Scan.step controls) s).Between (due.step token) := by
  rw [hseparator, List.foldl_cons]
  exact (h.punctuation controls hc).spaces controls n

/-- The items of a list are texts with separators between them. -/
theorem itemChars_eq_intercalate (layout : Layout) (items : List Json) :
    itemChars layout items = layout.betweenItems.intercalate (items.map (chars layout)) := by
  induction items with
  | nil => rfl
  | cons item items ih =>
      cases items with
      | nil => simp [itemChars]
      | cons next items =>
          rw [itemChars, ih]
          simp

/-- A text that delivers a value to whatever waits for one. -/
def Delivers (controls : Controls) (t : List Char) (v : Json) : Prop :=
  ∀ (s : Scan) (fresh : Bool) (stack : List Frame), s.Between (.value fresh stack) →
    (t.foldl (Scan.step controls) s).Stands (deliver v stack)

/-- Texts of the items of an array, with a comma and blanks between them.  The induction is on the
items that are still to be read. -/
theorem scan_texts {controls : Controls} {separator : List Char} {n : Nat}
    (hseparator : separator = ',' :: List.replicate n ' ') {entries : List (List Char × Json)}
    (hne : entries ≠ []) (h : ∀ entry ∈ entries, Delivers controls entry.1 entry.2) :
    ∀ {s : Scan} {fresh : Bool} {read : List Json} {stack : List Frame},
      s.Between (.value fresh (.items read :: stack)) →
        ((separator.intercalate (entries.map Prod.fst)).foldl (Scan.step controls) s).Stands
          (.afterItem ((entries.map Prod.snd).reverse ++ read) stack) := by
  induction entries with
  | nil => exact absurd rfl hne
  | cons entry rest ih =>
      intro s fresh read stack hs
      obtain ⟨hentry, hrest⟩ := List.forall_mem_cons.mp h
      have hvalue : (entry.1.foldl (Scan.step controls) s).Stands
          (.afterItem (entry.2 :: read) stack) := hentry s fresh _ hs
      -- The last text has no separator behind it.
      cases rest with
      | nil => simpa using hvalue
      | cons next rest =>
          have hcomma := scan_separator controls (rfl : punctuation? ',' = some .comma) hseparator
            hvalue
          have hread := ih (List.cons_ne_nil next rest) hrest hcomma
          simpa using hread

/-- The items of an array. -/
theorem scan_items {controls : Controls} {layout : Layout} (hlayout : layout.Plain)
    {items : List Json} (hne : items ≠ []) (hitems : ∀ v ∈ items, Reads controls layout v)
    {s : Scan} {fresh : Bool} {read : List Json} {stack : List Frame}
    (hs : s.Between (.value fresh (.items read :: stack))) :
    ((itemChars layout items).foldl (Scan.step controls) s).Stands
      (.afterItem (items.reverse ++ read) stack) := by
  obtain ⟨m, -, hbetween, -⟩ := hlayout
  have hentries : ∀ entry ∈ items.map fun v => (chars layout v, v),
      Delivers controls entry.1 entry.2 := by
    intro entry hentry
    obtain ⟨v, hv, rfl⟩ := List.mem_map.mp hentry
    exact hitems v hv
  have hread := scan_texts hbetween (by simpa using hne) hentries hs
  rw [itemChars_eq_intercalate]
  simpa [Function.comp_def] using hread

/-- A list is read if its items are. -/
theorem reads_arr {controls : Controls} {layout : Layout} (hlayout : layout.Plain)
    {items : List Json} (hitems : ∀ v ∈ items, Reads controls layout v) :
    Reads controls layout (.arr items) := by
  intro s fresh stack hs
  have hopen := (Scan.Stands.between hs).punctuation controls
    (rfl : punctuation? '[' = some .openBracket)
  rw [chars, List.cons_append, List.foldl_cons, List.foldl_append, List.foldl_cons, List.foldl_nil]
  cases items with
  | nil =>
      exact .between ((Scan.Stands.between hopen).punctuation controls
        (rfl : punctuation? ']' = some .closeBracket))
  | cons x rest =>
      have hread := scan_items hlayout (List.cons_ne_nil x rest) hitems hopen
      have hclose := hread.punctuation controls (rfl : punctuation? ']' = some .closeBracket)
      rw [Due.step, List.append_nil, List.reverse_reverse] at hclose
      exact .between hclose

/-- The members of an object.  As no name occurs twice, each is put behind those read before. -/
theorem scan_members {controls : Controls} {layout : Layout} (hlayout : layout.Plain)
    {members : Fields Json} (hne : members ≠ [])
    (hmembers : ∀ entry ∈ members, Reads controls layout entry.2) :
    ∀ {s : Scan} {fresh : Bool} {read : Fields Json} {stack : List Frame},
      (Fields.names (read ++ members)).Nodup → s.Between (.name fresh read stack) →
        ((memberChars layout members).foldl (Scan.step controls) s).Stands
          (.afterMember (read ++ members) stack) := by
  obtain ⟨m, n, hbetween, hafter⟩ := hlayout
  induction members with
  | nil => exact absurd rfl hne
  | cons entry rest ih =>
      intro s fresh read stack hnames hs
      obtain ⟨name, x⟩ := entry
      obtain ⟨hx, hrest⟩ := List.forall_mem_cons.mp hmembers
      -- Since the name is new, the member is put behind the others.
      have hname : name ∉ Fields.names read := by
        intro hmem
        rw [Fields.names, List.map_append, List.nodup_append] at hnames
        exact hnames.2.2 name hmem name (by simp) rfl
      have hcolon := scan_separator controls (rfl : punctuation? ':' = some .colon) hafter
        (.between (hs.text controls layout.asciiOnly name))
      have hvalue := hx _ false _ hcolon
      rw [deliver, Fields.put_of_notMem x hname] at hvalue
      -- The last member has no separator behind it.
      cases rest with
      | nil =>
          rw [memberChars, List.foldl_append, List.foldl_append]
          exact hvalue
      | cons y rest =>
          rw [memberChars, List.foldl_append, List.foldl_append, List.foldl_append,
            List.foldl_append]
          have hcomma := scan_separator controls (rfl : punctuation? ',' = some .comma) hbetween
            hvalue
          have hread := ih (List.cons_ne_nil y rest) hrest (by simpa using hnames) hcomma
          rwa [List.append_assoc] at hread

/-- An object is read if the values of its members are, and no name hides another. -/
theorem reads_obj {controls : Controls} {layout : Layout} (hlayout : layout.Plain)
    {members : Fields Json} (hnames : (Fields.names members).Nodup)
    (hmembers : ∀ entry ∈ members, Reads controls layout entry.2) :
    Reads controls layout (.obj members) := by
  intro s fresh stack hs
  have hopen := (Scan.Stands.between hs).punctuation controls
    (rfl : punctuation? '\x7b' = some .openBrace)
  rw [chars, List.cons_append, List.foldl_cons, List.foldl_append, List.foldl_cons, List.foldl_nil]
  cases members with
  | nil =>
      exact .between ((Scan.Stands.between hopen).punctuation controls
        (rfl : punctuation? '\x7d' = some .closeBrace))
  | cons entry rest =>
      have hread := scan_members hlayout (List.cons_ne_nil entry rest) hmembers hnames hopen
      exact .between (hread.punctuation controls (rfl : punctuation? '\x7d' = some .closeBrace))

/-- Every value is read, by induction on how its objects have distinct names. -/
theorem reads_of_distinct (controls : Controls) {layout : Layout} (hlayout : layout.Plain)
    {v : Json} (h : v.Distinct) : Reads controls layout v := by
  induction h with
  | null => exact reads_word isWord_null
  | bool value =>
      cases value with
      | true => exact reads_word isWord_true
      | false => exact reads_word isWord_false
  | int value => exact reads_word (isWord_integer value)
  | float value => exact reads_word (isWord_float value)
  | str value => exact reads_str controls layout value
  | arr _ ih => exact reads_arr hlayout ih
  | obj hnames _ ih => exact reads_obj hlayout hnames ih

/-- **A value is read back from its text.** -/
theorem ofChars?_chars (controls : Controls) {layout : Layout} (hlayout : layout.Plain) {v : Json}
    (h : v.Distinct) : ofChars? controls (chars layout v) = some v := by
  rw [ofChars?_eq]
  exact (reads_of_distinct controls hlayout h _ false [] Scan.between_start).value?_eq

end ReAct.Json
