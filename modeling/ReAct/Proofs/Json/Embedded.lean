import ReAct.Proofs.Json.Path
import ReAct.Proofs.Json.Prefixed

/-!
# A text inside of a larger one

A text that denotes a value delivers that value wherever one is due (`delivers_of_ofChars?`).  The
scanner does not look at the tokens before it, and the containers that are open around the text stay
below those that it opens itself.  So texts that were written by anyone, joined with commas between
brackets, are read as the list of their values (`read?_texts`).

## Main Definitions

* `Due.inside`: what is due inside of open containers
-/

namespace ReAct.Json

/-! ## Open containers around a text -/

/-- What is due, with other containers open around it. -/
def Due.inside (outer : List Frame) : Due → Due
  | .value fresh stack => .value fresh (stack ++ outer)
  | .name fresh read stack => .name fresh read (stack ++ outer)
  | .colon read key stack => .colon read key (stack ++ outer)
  | .afterItem read stack => .afterItem read (stack ++ outer)
  | .afterMember read stack => .afterMember read (stack ++ outer)
  | .nothing v => deliver v outer
  | .fault => .fault

/-- A value is handed over in the same way if there are more containers around. -/
theorem deliver_inside (v : Json) (stack outer : List Frame) :
    (deliver v stack).inside outer = deliver v (stack ++ outer) := by
  cases stack with
  | nil => rfl
  | cons frame stack => cases frame <;> rfl

/-- An array that has just been opened may be closed at once, whatever is open around it. -/
theorem closeBracket_inside {stack : List Frame}
    (h : Due.step (.value true stack) .closeBracket ≠ .fault) (outer : List Frame) :
    Due.step (.value true (stack ++ outer)) .closeBracket =
      (Due.step (.value true stack) .closeBracket).inside outer := by
  cases stack with
  | nil => exact absurd rfl h
  | cons frame stack =>
      cases frame with
      | member => exact absurd rfl h
      | items read =>
          cases read with
          | nil => exact (deliver_inside (.arr []) stack outer).symm
          | cons => exact absurd rfl h

/-- A token that fits does inside of other containers what it does alone. -/
theorem Due.step_inside {due : Due} {token : Token} (h : due.step token ≠ .fault)
    (outer : List Frame) : (due.inside outer).step token = (due.step token).inside outer := by
  cases due with
  -- A token that is due only looks at the innermost container, which stays innermost.
  | value fresh stack =>
      cases token with
      | scalar v => exact (deliver_inside v stack outer).symm
      | text s => exact (deliver_inside (.str s) stack outer).symm
      | openBrace => rfl
      | openBracket => rfl
      | closeBracket =>
          cases fresh with
          | true => exact closeBracket_inside h outer
          | false => exact absurd rfl h
      | _ => cases fresh <;> exact absurd rfl h
  | name fresh read stack =>
      cases token with
      | text s => rfl
      | closeBrace =>
          cases fresh with
          | true => exact (deliver_inside (.obj read) stack outer).symm
          | false => exact absurd rfl h
      | _ => cases fresh <;> exact absurd rfl h
  | colon read name stack =>
      cases token with
      | colon => rfl
      | _ => exact absurd rfl h
  | afterItem read stack =>
      cases token with
      | comma => rfl
      | closeBracket => exact (deliver_inside (.arr read.reverse) stack outer).symm
      | _ => exact absurd rfl h
  | afterMember read stack =>
      cases token with
      | comma => rfl
      | closeBrace => exact (deliver_inside (.obj read) stack outer).symm
      | _ => exact absurd rfl h
  | nothing v => exact absurd (Due.step_nothing v token) h
  | fault => exact absurd (Due.step_fault token) h

/-- The first token of a value: that an array may be closed at once does not matter to it. -/
theorem Due.step_first {token : Token} (h : Due.step (.value false []) token ≠ .fault)
    (fresh : Bool) (outer : List Frame) :
    Due.step (.value fresh outer) token = (Due.step (.value false []) token).inside outer := by
  cases token with
  | scalar v => rfl
  | text s => rfl
  | openBrace => rfl
  | openBracket => rfl
  | _ => exact absurd rfl h

/-- The tokens of a value where one is due. -/
theorem dueAfter_append {tokens base : List Token} {fresh : Bool} {outer : List Frame}
    (hbase : dueAfter base = .value fresh outer) (hne : tokens ≠ [])
    (h : dueAfter tokens ≠ .fault) :
    dueAfter (tokens ++ base) = (dueAfter tokens).inside outer := by
  induction tokens with
  | nil => exact absurd rfl hne
  | cons token tokens ih =>
      rw [dueAfter_cons] at h
      rw [List.cons_append, dueAfter_cons, dueAfter_cons]
      cases tokens with
      -- Only the first token meets what is due around the value.
      | nil =>
          rw [List.nil_append, hbase]
          exact Due.step_first h fresh outer
      | cons next tokens =>
          have hfits : dueAfter (next :: tokens) ≠ .fault := by
            intro hfault
            rw [hfault] at h
            exact h (Due.step_fault token)
          rw [ih (List.cons_ne_nil next tokens) hfits]
          exact Due.step_inside h outer

/-- Tokens that leave nothing due deliver their value to what is open around them. -/
theorem dueAfter_append_of_nothing {tokens base : List Token} {fresh : Bool} {outer : List Frame}
    (hbase : dueAfter base = .value fresh outer) {v : Json} (h : dueAfter tokens = .nothing v) :
    dueAfter (tokens ++ base) = deliver v outer := by
  have hne : tokens ≠ [] := by
    rintro rfl
    cases h
  rw [dueAfter_append hbase hne (by rw [h]; exact Due.noConfusion), h]
  rfl

/-- **A text delivers its value wherever one is due.** -/
theorem delivers_of_ofChars? {controls : Controls} {t : List Char} {v : Json}
    (h : ofChars? controls t = some v) : Delivers controls t v := by
  rintro ⟨base, mode⟩ fresh outer ⟨hmode, hbase⟩
  cases hmode
  have honto : Scan.start.onto base = ⟨base, .between⟩ := rfl
  rw [← honto, Scan.foldl_onto]
  rw [ofChars?_eq] at h
  generalize t.foldl (Scan.step controls) .start = s at h ⊢
  cases stands_of_value? h with
  | between hs => exact .between ⟨hs.1, dueAfter_append_of_nothing hbase hs.2⟩
  | @word tokens word scalar hscalar hdue =>
      refine .word hscalar ?_
      have hdone : dueAfter (.scalar scalar :: tokens) = .nothing v := hdue
      exact dueAfter_append_of_nothing hbase hdone

/-! ## Lists of texts -/

/-- **Texts that are joined as the items of a list are read as their values.** -/
theorem read?_texts {entries : List (String × Json)}
    (h : ∀ entry ∈ entries, read? entry.1 = some entry.2) :
    read? ("[" ++ ", ".intercalate (entries.map Prod.fst) ++ "]") =
      some (.arr (entries.map Prod.snd)) := by
  have hchars : ("[" ++ ", ".intercalate (entries.map Prod.fst) ++ "]").toList =
      '[' :: ([',', ' '].intercalate (entries.map fun entry => entry.1.toList) ++ [']']) := by
    simp [String.toList_intercalate, Function.comp_def]
  -- Opening bracket, entries with commas between them, closing bracket.
  have hopen := (Scan.Stands.between Scan.between_start).punctuation .refused
    (rfl : punctuation? '[' = some .openBracket)
  rw [read?, hchars, ofChars?_eq, List.foldl_cons, List.foldl_append, List.foldl_cons,
    List.foldl_nil]
  cases entries with
  | nil =>
      have hclose := (Scan.Stands.between hopen).punctuation .refused
        (rfl : punctuation? ']' = some .closeBracket)
      exact (Scan.Stands.between hclose).value?_eq
  | cons entry rest =>
      have hentries : ∀ item ∈ (entry :: rest).map fun entry => (entry.1.toList, entry.2),
          Delivers .refused item.1 item.2 := by
        intro item hitem
        obtain ⟨entry, hentry, rfl⟩ := List.mem_map.mp hitem
        exact delivers_of_ofChars? (h entry hentry)
      -- Every entry is a text of its own that delivers its value, whoever wrote it.
      have hread := @scan_texts .refused [',', ' '] 1 rfl _ (by simp) hentries _ _ _ _ hopen
      have hclose := hread.punctuation .refused (rfl : punctuation? ']' = some .closeBracket)
      rw [Due.step, List.append_nil, List.reverse_reverse] at hclose
      rw [List.map_map, List.map_map] at hclose
      exact (Scan.Stands.between hclose).value?_eq

end ReAct.Json
