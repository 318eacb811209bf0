import ReAct.Proofs.Fields
import ReAct.Proofs.Text.Stretches
import ReAct.Proofs.Tool.Nested

/-!
# Objects that are written entry by entry

An object may be written as entries with commas between them.  If each entry begins with a quote and
is read as a name and a text whatever comes behind it, then the object is read as these names and
texts, in their order (`lenient_intercalate`), and a comma behind the last entry makes no
difference.  An entry is such a one if its name is in quotes, and its value is in quotes or a JSON
container (`isEntry_of_isQuoted`).

## Main Definitions

* `IsQuoted`, `IsValue`, `IsEntry`: quoted texts, values and entries by what they are read as
-/

namespace ReAct.Tool.ActionInput

/-! ## Parts of an entry -/

/-- What comes behind an entry: a comma or the closing brace. -/
def EndsEntry (rest : List Char) : Prop :=
  rest.head? = some ',' ∨ rest.head? = some '\x7d'

/-- A text in quotes that is read as `text`, unless one more of its quotes follows. -/
def IsQuoted (t text : List Char) : Prop :=
  ∃ quote inside, isQuote quote = true ∧ t = quote :: inside ∧
    ∀ rest, rest.head? ≠ some quote → afterQuote quote (inside ++ rest) = .ok (text, rest)

/-- A value that is read as `text`, whatever comes behind its entry. -/
structure IsValue (t text : List Char) : Prop where
  skip : ∀ rest, skip (t ++ rest) = t ++ rest
  read : ∀ rest, EndsEntry rest → value (t ++ rest) = .ok (text, rest)

/-- An entry that is read as a name and a text, whatever comes behind it. -/
structure IsEntry (t : List Char) (found : String × String) : Prop where
  starts : ∃ quote more, isQuote quote = true ∧ t = quote :: more
  read : ∀ rest, EndsEntry rest →
    entry (t ++ rest) = .ok ((found.1.toList, found.2.toList), behindComma rest)

variable {t text : List Char}

theorem skip_of_head {c : Char} (hc : Json.isSpace c = false) (s : List Char) :
    skip (c :: s) = c :: s := by
  rw [skip, List.dropWhile_cons_of_neg (by simp [hc])]

/-- Spaces in front are passed over. -/
theorem skip_spaces (n : Nat) (s : List Char) : skip (List.replicate n ' ' ++ s) = skip s := by
  induction n with
  | zero => rfl
  | succ n ih => exact ih

theorem isSpace_of_isQuote {c : Char} (h : isQuote c = true) : Json.isSpace c = false := by
  simp only [isQuote, Bool.or_eq_true, decide_eq_true_eq] at h
  rcases h with rfl | rfl <;> rfl

/-- What ends an entry is no quote, so a quoted text in front of it has ended. -/
theorem EndsEntry.head?_ne {rest : List Char} (h : EndsEntry rest) {quote : Char}
    (hquote : isQuote quote = true) : rest.head? ≠ some quote := by
  simp only [isQuote, Bool.or_eq_true, decide_eq_true_eq] at hquote
  rcases h with h | h <;> rcases hquote with rfl | rfl <;> rw [h] <;> simp

/-- A text in single quotes is read as the text. -/
theorem isQuoted_singleQuoted (s : List Char) : IsQuoted (singleQuoted s) s := by
  refine ⟨'\'', s.flatMap (escaped '\'') ++ ['\''], rfl, rfl, ?_⟩
  intro rest hrest
  rw [List.append_assoc]
  exact afterQuote_escaped (by decide) s hrest

/-- A JSON literal is read as its text without the back-slashes of its escapes. -/
theorem isQuoted_literal (asciiOnly : Bool) (s : List Char) :
    IsQuoted (Json.literal asciiOnly s) (s.flatMap (altered asciiOnly)) := by
  refine ⟨'"', Json.body asciiOnly s ++ ['"'], rfl, rfl, ?_⟩
  intro rest hrest
  rw [List.append_assoc]
  exact afterQuote_body asciiOnly s hrest

/-- A quoted text is read as a key where no quote follows. -/
theorem IsQuoted.key_eq (h : IsQuoted t text) {rest : List Char} {c : Char}
    (hrest : rest.head? = some c) (hc : isQuote c = false) :
    key (t ++ rest) = .ok (text, rest) := by
  obtain ⟨quote, inside, hquote, rfl, hread⟩ := h
  have hne : rest.head? ≠ some quote := by
    rw [hrest]
    rintro ⟨⟩
    rw [hc] at hquote
    cases hquote
  show key (quote :: (inside ++ rest)) = _
  rw [key, if_pos hquote, hread rest hne]

/-- A quoted text is read as a value. -/
theorem IsQuoted.isValue (h : IsQuoted t text) : IsValue t text := by
  obtain ⟨quote, inside, hquote, rfl, hread⟩ := h
  constructor
  · intro rest
    exact skip_of_head (isSpace_of_isQuote hquote) _
  · intro rest hrest
    show value (quote :: (inside ++ rest)) = _
    rw [value, if_pos hquote, hread rest (hrest.head?_ne hquote)]

/-- A bracket begins a nested value. -/
theorem value_of_opening {c close : Char} (hc : closer? c = some close) (s : List Char) :
    value (c :: s) = nested (c :: s) := by
  have hquote : isQuote c = false := by
    rcases closer?_eq_some hc with ⟨rfl, -⟩ | ⟨rfl, -⟩ <;> rfl
  rw [value, if_neg (by simp [hquote]), hc]
  rfl

/-- A value in brackets is read as its own text. -/
theorem isValue_of_passedOver {c close : Char} (hc : closer? c = some close)
    {inside : List Char} (h : PassedOver inside) :
    IsValue (c :: inside ++ [close]) (c :: inside ++ [close]) := by
  constructor
  · intro rest
    refine skip_of_head ?_ _
    rcases closer?_eq_some hc with ⟨rfl, -⟩ | ⟨rfl, -⟩ <;> rfl
  · intro rest _
    exact (value_of_opening hc _).trans (nested_of_passedOver hc h rest)

/-- **An entry by its parts**: a name in quotes, a colon, blanks, and a value. -/
theorem isEntry_of_isQuoted {name : String} {found : String} {k v : List Char}
    (hname : IsQuoted k name.toList) (hvalue : IsValue v found.toList) (n : Nat) :
    IsEntry (k ++ ':' :: List.replicate n ' ' ++ v) (name, found) := by
  constructor
  · obtain ⟨quote, inside, hquote, rfl, -⟩ := hname
    exact ⟨quote, _, hquote, rfl⟩
  · intro rest hrest
    have hkey : key (k ++ ':' :: List.replicate n ' ' ++ v ++ rest) =
        .ok (name.toList, ':' :: (List.replicate n ' ' ++ (v ++ rest))) := by
      rw [List.append_assoc, List.append_assoc, List.cons_append]
      exact hname.key_eq rfl rfl
    have hskip : skip (List.replicate n ' ' ++ (v ++ rest)) = v ++ rest := by
      rw [skip_spaces, hvalue.skip]
    refine entry_eq_ok.mpr ⟨_, _, rest, hkey, skip_of_head rfl _, ?_, rfl⟩
    rw [hskip, hvalue.read rest hrest]

/-! ## Entries with commas between them -/

variable {α : Type} {write : α → List Char} {found : α → String × String}

/-- One entry is read, and the comma behind it passed over. -/
theorem entriesWithin_of_isEntry {found : String × String} (h : IsEntry t found) {rest : List Char}
    (hrest : EndsEntry rest) (bound : Nat) (fields : Fields String) :
    entriesWithin (bound + 1) fields (t ++ rest) =
      entriesWithin bound (fields.put found.1 found.2) (behindComma rest) := by
  have hread := h.read rest hrest
  obtain ⟨quote, more, hquote, rfl⟩ := h.starts
  have hbrace : quote ≠ '\x7d' := by
    rintro rfl
    cases hquote
  rw [List.cons_append] at hread ⊢
  rw [entriesWithin, if_neg hbrace, hread]
  dsimp only
  rw [String.ofList_toList, String.ofList_toList]

/-- What stands between two entries. -/
def comma (n : Nat) : List Char :=
  ',' :: List.replicate n ' '

theorem behindComma_comma (n : Nat) (s : List Char) : behindComma (comma n ++ s) = skip s := by
  have hskip : skip (comma n ++ s) = ',' :: (List.replicate n ' ' ++ s) := skip_of_head rfl _
  rw [behindComma_of_comma hskip, skip_spaces]

/-- Entries begin like the first one of them, with a quote. -/
theorem skip_intercalate (hwrite : ∀ a, IsEntry (write a) (found a)) (n : Nat) {items : List α}
    (hne : items ≠ []) (tail : List Char) :
    skip ((comma n).intercalate (items.map write) ++ tail) =
      (comma n).intercalate (items.map write) ++ tail := by
  cases items with
  | nil => exact absurd rfl hne
  | cons a items =>
      obtain ⟨quote, inside, hquote, hstart⟩ := (hwrite a).starts
      obtain ⟨more, hmore⟩ := Text.prefix_intercalate (comma n) (write a) (items.map write)
      rw [List.map_cons, ← hmore, hstart]
      exact skip_of_head (isSpace_of_isQuote hquote) _

/-- The entries of an object, from the first one on.  The induction is on the entries that are
still to be read; `tail` is the closing brace, perhaps behind a comma. -/
theorem entriesWithin_intercalate (hwrite : ∀ a, IsEntry (write a) (found a)) (n : Nat)
    {tail : List Char} (htail : EndsEntry tail) (hclose : behindComma tail = ['\x7d'])
    {items : List α} (hne : items ≠ []) {bound : Nat} (fields : Fields String)
    (hbound : ((comma n).intercalate (items.map write) ++ tail).length ≤ bound) :
    entriesWithin bound fields ((comma n).intercalate (items.map write) ++ tail) =
      .ok (fields.merge (items.map found)) := by
  induction items generalizing fields bound with
  -- By induction on the entries.  The last one is closed by the brace, any other by a comma.
  | nil => exact absurd rfl hne
  | cons a items ih =>
      have hpos : 0 < (write a).length := by
        obtain ⟨quote, more, -, hstart⟩ := (hwrite a).starts
        rw [hstart]
        exact Nat.succ_pos _
      cases items with
      | nil =>
          rw [List.map_cons, List.map_nil, List.intercalate_singleton] at hbound ⊢
          have htailpos : 0 < tail.length := (suffix_behindComma tail).length_le.trans_lt' <| by
            rw [hclose]
            exact Nat.one_pos
          obtain ⟨bound, rfl⟩ : ∃ more, bound = more + 2 :=
            ⟨bound - 2, by rw [List.length_append] at hbound; omega⟩
          rw [entriesWithin_of_isEntry (hwrite a) htail, hclose, entriesWithin, if_pos rfl]
          rfl
      | cons b items =>
          rw [List.map_cons, List.map_cons, List.intercalate_cons_cons, List.append_assoc,
            List.append_assoc] at hbound ⊢
          obtain ⟨bound, rfl⟩ : ∃ more, bound = more + 1 :=
            ⟨bound - 1, by rw [List.length_append] at hbound; omega⟩
          rw [entriesWithin_of_isEntry (hwrite a) (.inl rfl), behindComma_comma]
          have hskip := skip_intercalate hwrite n (List.cons_ne_nil b items) tail
          rw [List.map_cons] at hskip
          rw [hskip]
          refine ih (List.cons_ne_nil b items) _ ?_
          rw [List.map_cons]
          simp only [List.length_append] at hbound ⊢
          omega

/-- **Entries with commas between them are read in their order.** -/
theorem lenient_intercalate (hwrite : ∀ a, IsEntry (write a) (found a)) (n : Nat)
    {tail : List Char} (htail : EndsEntry tail) (hclose : behindComma tail = ['\x7d'])
    {items : List α} (hne : items ≠ []) :
    lenient ((comma n).intercalate (items.map write) ++ tail) =
      .ok (Fields.ofEntries (items.map found)) := by
  rw [lenient, skip_intercalate hwrite n hne]
  exact entriesWithin_intercalate hwrite n htail hclose hne [] (Nat.le_succ _)

/-! ## Texts between braces -/

/-- Nothing is trimmed from a text between braces. -/
theorem trim_braced (s : List Char) :
    Text.trim ('\x7b' :: s ++ ['\x7d']) = '\x7b' :: s ++ ['\x7d'] := by
  refine Text.trim_eq_self (fun c hc => ?_) fun c hc => ?_
  · obtain rfl := Option.some.inj hc
    rfl
  · rw [List.getLast?_concat] at hc
    obtain rfl := Option.some.inj hc
    rfl

/-- What stands between braces and is not JSON is read leniently. -/
theorem read_braced {s : List Char}
    (hnone : Json.ofChars? .refused ('\x7b' :: s ++ ['\x7d']) = none) :
    read (String.ofList ('\x7b' :: s ++ ['\x7d'])) = lenient (s ++ ['\x7d']) := by
  refine read_of_none ?_ hnone
  rw [String.toList_ofList]
  exact trim_braced s

end ReAct.Tool.ActionInput
