import ReAct.Proofs.Json.Limits

/-!
# Lists of texts within the limits

A list of texts nests no deeper than one level and has no numbers in it, so whoever reads it exceeds
no limit, however long it is (`readOverrun?_of_texts`).

The proof goes backwards.  A state in which anything else than a list of texts is under way stays
one; so if a list of texts comes out at the end, there was no such state on the way.

## Main Definitions

* `Due.ListsTexts`: what may be due on the way to a list of texts
* `Reading.ListsTexts`: where the interpreter may stand on that way
-/

namespace ReAct.Json

variable {limits : Limits} {controls : Controls}

/-! ## What is due -/

/-- A value that is a text. -/
def IsText (v : Json) : Prop :=
  ∃ text, v = .str text

/-- What may be due on the way to a list of texts, and at its end. -/
def Due.ListsTexts : Due → Prop
  | .value _ [] => True
  | .value _ [.items read] => ∀ v ∈ read, v.IsText
  | .afterItem read [] => ∀ v ∈ read, v.IsText
  | .nothing (.arr items) => ∀ v ∈ items, v.IsText
  | _ => False

/-- A value is a whole list of texts, or a text that is put into the list. -/
theorem deliver_listsTexts {v : Json} {stack : List Frame} (h : (deliver v stack).ListsTexts) :
    (stack = [] ∧ ∃ items, v = .arr items ∧ ∀ item ∈ items, item.IsText) ∨
      ∃ read, stack = [.items read] ∧ v.IsText ∧ ∀ item ∈ read, item.IsText := by
  cases stack with
  | nil =>
      cases v with
      | arr items => exact .inl ⟨rfl, items, rfl, h⟩
      | _ => exact h.elim
  | cons frame rest =>
      cases frame with
      | member => exact h.elim
      | items read =>
          cases rest with
          | nil => exact .inr ⟨read, rfl, List.forall_mem_cons.mp h⟩
          | cons => exact h.elim

theorem not_isText_arr (items : List Json) : ¬ IsText (.arr items) := by
  rintro ⟨text, ⟨⟩⟩

/-- An object, wherever it is handed over, makes no list of texts. -/
theorem not_listsTexts_deliver_obj {members : Fields Json} {stack : List Frame} :
    ¬ (deliver (.obj members) stack).ListsTexts := by
  intro h
  rcases deliver_listsTexts h with ⟨-, items, ⟨⟩, -⟩ | ⟨read, -, ⟨text, ⟨⟩⟩, -⟩

/-- **What leads to a list of texts was on the way to one.** -/
theorem Due.listsTexts_of_step {due : Due} {token : Token} (h : (due.step token).ListsTexts) :
    due.ListsTexts := by
  unfold Due.step at h
  split at h
  · -- a value that is a word
    rcases deliver_listsTexts h with ⟨rfl, -⟩ | ⟨read, rfl, -, hread⟩
    · exact trivial
    · exact hread
  · -- a text
    rcases deliver_listsTexts h with ⟨rfl, -⟩ | ⟨read, rfl, -, hread⟩
    · exact trivial
    · exact hread
  · exact h.elim
  · -- an array that is opened inside of another one is no text
    rename_i stack
    cases stack with
    | nil => exact trivial
    | cons => exact h.elim
  · rcases deliver_listsTexts h with ⟨rfl, -⟩ | ⟨read, -, htext, -⟩
    · exact fun v hv => (List.not_mem_nil hv).elim
    · exact (not_isText_arr [] htext).elim
  · exact h.elim
  · exact (not_listsTexts_deliver_obj h).elim
  · exact h.elim
  · -- a comma
    rename_i read stack
    cases stack with
    | nil => exact h
    | cons => exact h.elim
  · -- the end of an array
    rename_i read stack
    rcases deliver_listsTexts h with ⟨rfl, items, ⟨⟩, hitems⟩ | ⟨_, -, htext, -⟩
    · exact fun v hv => hitems v (List.mem_reverse.mpr hv)
    · exact (not_isText_arr _ htext).elim
  · exact h.elim
  · exact (not_listsTexts_deliver_obj h).elim
  · exact h.elim

theorem Due.listsTexts_of_foldr {due : Due} {tokens : List Token}
    (h : (tokens.foldr (fun token due => due.step token) due).ListsTexts) : due.ListsTexts := by
  induction tokens with
  | nil => exact h
  | cons token tokens ih => exact ih (listsTexts_of_step h)

/-- A word is no text. -/
theorem not_listsTexts_step_word {due : Due} {word : List Char} {v : Json}
    (hword : wordValue? word = some v) : ¬ (due.step (.scalar v)).ListsTexts := by
  have hplain : ¬ v.IsText ∧ ∀ items, v ≠ .arr items :=
    @wordValue?_induction (fun v => ¬ v.IsText ∧ ∀ items, v ≠ .arr items)
      ⟨nofun, nofun⟩ (fun _ => ⟨nofun, nofun⟩) (fun _ => ⟨nofun, nofun⟩) (fun _ => ⟨nofun, nofun⟩)
      word v hword
  intro h
  cases due with
  | value fresh stack =>
      rcases deliver_listsTexts h with ⟨-, items, hitems, -⟩ | ⟨-, -, htext, -⟩
      · exact hplain.2 items hitems
      · exact hplain.1 htext
  | nothing => rwa [Due.step_nothing] at h
  | _ => exact h

/-! ## Where the interpreter stands -/

/-- On the way to a list of texts, the interpreter stands between tokens or inside of a text. -/
structure Reading.ListsTexts (reading : Reading) : Prop where
  due : reading.due.ListsTexts
  mode : reading.mode = .between ∨ ∃ value escape, reading.mode = .inText value escape

/-- A word does not become part of one, whether it ends or not. -/
theorem not_listsTexts_step_of_word (controls : Controls) (word : List Char) (due : Due)
    (c : Char) : ¬ (Reading.step controls ⟨.word word, due⟩ c).ListsTexts := by
  intro h
  have hscan : Scan.stepLoosely controls ⟨[], .word word⟩ c =
      Scan.step controls ⟨[], .word word⟩ c := if_neg nofun
  by_cases hend : endsWord c = true
  · cases hvalue : wordValue? word.reverse with
    | none =>
        obtain ⟨-, hmode⟩ := h
        rw [Reading.step, hscan, Scan.step_word_fault controls [] hend hvalue] at hmode
        rcases hmode with hmode | ⟨_, _, hmode⟩ <;> cases hmode
    | some v =>
        -- The value comes before the token that the character is.
        have hfirst := stepBetween_onto [] [.scalar v] c
        rw [List.nil_append] at hfirst
        have hdue := h.due
        rw [Reading.step, hscan, Scan.step_word_end controls [] hend hvalue, hfirst] at hdue
        simp only [Scan.onto, List.foldr_append] at hdue
        exact not_listsTexts_step_word hvalue (Due.listsTexts_of_foldr hdue)
  · obtain ⟨-, hmode⟩ := h
    rw [Reading.step, hscan, Scan.step_word controls [] (by simpa using hend)] at hmode
    rcases hmode with hmode | ⟨_, _, hmode⟩ <;> cases hmode

/-- A state from which a character leads to such a state is one. -/
theorem Reading.listsTexts_of_step {reading : Reading} {c : Char}
    (h : (reading.step controls c).ListsTexts) : reading.ListsTexts := by
  have hdue : reading.due.ListsTexts := Due.listsTexts_of_foldr h.due
  obtain ⟨mode, due⟩ := reading
  cases mode with
  | between => exact ⟨hdue, .inl rfl⟩
  | inText value escape => exact ⟨hdue, .inr ⟨value, escape, rfl⟩⟩
  | word word => exact (not_listsTexts_step_of_word controls word due c h).elim
  | failed => obtain ⟨-, hmode | ⟨_, _, hmode⟩⟩ := h <;> cases hmode

/-- Backwards along a text: all states on the way to a list of texts are such states. -/
theorem Reading.listsTexts_of_foldl {t : List Char} :
    ∀ {reading : Reading}, (t.foldl (Reading.step controls) reading).ListsTexts →
      reading.ListsTexts := by
  induction t with
  | nil => exact fun h => h
  | cons c t ih => exact fun h => listsTexts_of_step (ih h)

/-- At the end of the text of such a list, the state is such a one. -/
theorem Reading.listsTexts_of_value? {reading : Reading} {texts : List String}
    (h : reading.value? = some (ofTexts texts)) : reading.ListsTexts := by
  have hdue {due : Due} (hvalue : due.value? = some (ofTexts texts)) : due.ListsTexts := by
    rw [Due.eq_nothing_of_value? hvalue]
    intro v hv
    obtain ⟨text, -, rfl⟩ := List.mem_map.mp hv
    exact ⟨text, rfl⟩
  obtain ⟨mode, due⟩ := reading
  cases mode with
  | between => exact ⟨hdue h, .inl rfl⟩
  | word word =>
      obtain ⟨v, hword, hvalue⟩ := Option.bind_eq_some_iff.mp h
      exact (not_listsTexts_step_word hword (hdue hvalue)).elim
  | inText value escape => cases h
  | failed => cases h

/-! ## The limits -/

/-- In a list of texts at most one container is open. -/
theorem Due.ListsTexts.depth_le {due : Due} (h : due.ListsTexts) : due.depth ≤ 1 := by
  unfold ListsTexts at h
  split at h
  · exact Nat.zero_le 1
  · exact Nat.le_refl 1
  · exact Nat.le_refl 1
  · exact Nat.zero_le 1
  · exact h.elim

namespace Limits

/-- In a list of texts no integer stands, so none is too long. -/
theorem wordOverrun?_of_listsTexts {reading : Reading} (h : reading.ListsTexts) :
    limits.wordOverrun? reading = none := by
  unfold wordOverrun?
  rcases h.mode with hmode | ⟨value, escape, hmode⟩ <;> rw [hmode]

/-- On the way to a list of texts no limit is exceeded. -/
theorem passes_of_listsTexts (hlimits : 0 < limits.reading) {t : List Char} :
    ∀ {reading : Reading}, (t.foldl (Reading.step controls) reading).ListsTexts →
      limits.Passes controls reading t := by
  induction t with
  | nil => exact fun _ => trivial
  | cons c t ih =>
      intro reading h
      have hnext : (reading.step controls c).ListsTexts := Reading.listsTexts_of_foldl h
      have hword : limits.wordOverrun? reading = none :=
        wordOverrun?_of_listsTexts (Reading.listsTexts_of_step hnext)
      have hdepth : limits.depthOverrun? controls reading c = none :=
        if_neg (Nat.not_lt.mpr (Nat.le_trans hnext.due.depth_le hlimits))
      refine ⟨?_, ih h⟩
      rw [overrunAt?, hword, hdepth, ite_self]
      rfl

/-- **A list of texts is read within all limits.** -/
theorem readOverrun?_of_texts (hlimits : 0 < limits.reading) {t : List Char}
    {texts : List String} (h : ofChars? controls t = some (ofTexts texts)) :
    limits.readOverrun? controls t = none := by
  have hvalue : looseValue? controls t = some (ofTexts texts) := by
    rw [looseValue?_of_whole (whole_of_ofChars? h), h]
  have hend : (t.foldl (Reading.step controls) {}).ListsTexts :=
    Reading.listsTexts_of_value? hvalue
  exact overrunFrom?_eq_none_iff.mpr
    ⟨passes_of_listsTexts hlimits hend, wordOverrun?_of_listsTexts hend⟩

end Limits

end ReAct.Json
