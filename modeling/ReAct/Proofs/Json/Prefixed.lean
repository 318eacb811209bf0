import ReAct.Proofs.Json.Nesting
import ReAct.Proofs.Json.RoundTrip
import ReAct.Text.Blank

/-!
# An object behind another text

What may stand in front of the text of an object, if the whole is to be read as that object?  The
blanks between tokens may (`ofChars?_append_of_spaces`).  A text that has a value of its own may
not, because nothing but blanks follows a complete value (`ofChars?_append_openBrace`), and neither
may the white space that is no blank between tokens, because no word begins with it
(`ofChars?_append_of_blanks`).
-/

namespace ReAct.Json

open Text

/-! ## Blanks between tokens -/

/-- JSON blanks change nothing. -/
theorem Scan.Between.blanks (controls : Controls) {due : Due} {s : Scan} (h : s.Between due)
    {t : List Char} (ht : ∀ c ∈ t, isSpace c = true) :
    (t.foldl (Scan.step controls) s).Between due := by
  induction t generalizing s with
  | nil => exact h
  | cons c t ih =>
      obtain ⟨hc, ht⟩ := List.forall_mem_cons.mp ht
      obtain ⟨tokens, mode⟩ := s
      obtain ⟨hmode, hdue⟩ := h
      cases hmode
      rw [List.foldl_cons, step_between, stepBetween_space tokens hc]
      exact ih ⟨rfl, hdue⟩ ht

/-- **Blanks in front of a value are passed over.** -/
theorem ofChars?_append_of_spaces (controls : Controls) {layout : Layout} (hlayout : layout.Plain)
    {v : Json} (hv : v.Distinct) {t : List Char} (ht : ∀ c ∈ t, isSpace c = true) :
    ofChars? controls (t ++ chars layout v) = some v := by
  have hbetween := Scan.between_start.blanks controls ht
  rw [ofChars?_eq, List.foldl_append]
  exact (reads_of_distinct controls hlayout hv _ false [] hbetween).value?_eq

/-! ## Complete values -/

/-- A text that has a value leaves nothing due. -/
theorem stands_of_value? {s : Scan} {v : Json} (h : s.value? = some v) :
    s.Stands (.nothing v) := by
  obtain ⟨tokens, mode⟩ := s
  cases mode with
  | between =>
      rw [value?_between] at h
      exact .between ⟨rfl, Due.eq_nothing_of_value? h⟩
  | word word =>
      rw [value?_word] at h
      obtain ⟨scalar, hscalar, hdue⟩ := Option.bind_eq_some_iff.mp h
      exact .word hscalar (Due.eq_nothing_of_value? hdue)
  | inText => cases h
  | failed => cases h

/-- **A text that has a value cannot be followed by an object.** -/
theorem ofChars?_append_openBrace {controls : Controls} {t : List Char} {v : Json}
    (h : ofChars? controls t = some v) (rest : List Char) :
    ofChars? controls (t ++ '\x7b' :: rest) = none := by
  rw [ofChars?_eq] at h ⊢
  rw [List.foldl_append, List.foldl_cons]
  obtain ⟨-, hfault⟩ := (stands_of_value? h).punctuation controls
    (rfl : punctuation? '\x7b' = some .openBrace)
  rw [Due.step_nothing] at hfault
  exact Scan.Dead.hopeless (.inr hfault) rest

/-! ## Other white space -/

/-- A blank is no other character. -/
theorem ne_of_isBlank {c d : Char} (hc : isBlank c = true) (hd : isBlank d = false) : c ≠ d := by
  rintro rfl
  rw [hc] at hd
  cases hd

/-- A blank ends a word only if it is one of the four of JSON. -/
theorem endsWord_of_isBlank {c : Char} (hc : isBlank c = true) : endsWord c = isSpace c := by
  have hquote : c ≠ '"' := ne_of_isBlank hc rfl
  have hpunctuation : punctuation? c = none := by
    rw [punctuation?, if_neg (ne_of_isBlank hc rfl), if_neg (ne_of_isBlank hc rfl),
      if_neg (ne_of_isBlank hc rfl), if_neg (ne_of_isBlank hc rfl),
      if_neg (ne_of_isBlank hc rfl), if_neg (ne_of_isBlank hc rfl)]
  simp [endsWord, hquote, hpunctuation]

/-- No word begins with white space. -/
theorem wordValue?_of_isBlank {c : Char} (hc : isBlank c = true) (rest : List Char) :
    wordValue? (c :: rest) = none := by
  have hdigit : isAsciiDigit c = false := by
    by_contra h
    rw [Bool.not_eq_false, isAsciiDigit, Bool.and_eq_true, decide_eq_true_eq,
      decide_eq_true_eq] at h
    have hlow : 48 ≤ c.toNat := h.1
    have hhigh : c.toNat ≤ 57 := h.2
    simp only [isBlank, Bool.or_eq_true, Bool.and_eq_true, decide_eq_true_eq, beq_iff_eq] at hc
    omega
  refine wordValue?_of_head hdigit (fun hmem => ?_) rest
  have hnone : ['n', 't', 'f', 'N', 'I', '-'].all fun c => !isBlank c := rfl
  have hnot := List.all_eq_true.mp hnone c hmem
  rw [hc] at hnot
  cases hnot

/-- White space that is no blank between tokens begins a word that has no value. -/
theorem hopeless_blanks {controls : Controls} (tokens : List Token) {t : List Char}
    (ht : ∀ c ∈ t, isBlank c = true) (hspaces : ¬ ∀ c ∈ t, isSpace c = true) :
    (t.foldl (Scan.step controls) ⟨tokens, .between⟩).Hopeless controls := by
  induction t with
  | nil => exact absurd (fun c hc => by cases hc) hspaces
  | cons c t ih =>
      obtain ⟨hc, ht⟩ := List.forall_mem_cons.mp ht
      rw [List.foldl_cons]
      -- The first blank that is none of JSON begins a word, and no word begins so.
      cases hspace : isSpace c with
      | true =>
          rw [Scan.step_between, stepBetween_space tokens hspace]
          exact ih ht fun hall => hspaces (List.forall_mem_cons.mpr ⟨hspace, hall⟩)
      | false =>
          have hends : endsWord c = false := (endsWord_of_isBlank hc).trans hspace
          have hword : ([c].foldl (Scan.step controls) ⟨tokens, .between⟩).Hopeless controls := by
            refine hopeless_of_word (List.cons_ne_nil c []) (by simpa using hends) ?_
            intro more v hv
            rw [List.singleton_append, wordValue?_of_isBlank hc] at hv
            cases hv
          exact hword.foldl t

/-- **White space that is no blank between tokens cannot be followed by an object.** -/
theorem ofChars?_append_of_blanks (controls : Controls) {t : List Char}
    (ht : ∀ c ∈ t, isBlank c = true) (hspaces : ¬ ∀ c ∈ t, isSpace c = true) (rest : List Char) :
    ofChars? controls (t ++ '\x7b' :: rest) = none := by
  rw [ofChars?_eq, List.foldl_append]
  exact hopeless_blanks [] ht hspaces _

end ReAct.Json
