import ReAct.Json.Limits
import ReAct.Proofs.Json.RoundTrip

/-!
# Texts and the limits of the interpreter

Where no half of a surrogate pair stands alone, the interpreter's reader is the one that knows no
limits (`looseValue?_of_whole`), and a text that has a value is such a text (`whole_of_ofChars?`).
What exceeds a limit is found place by place, so a text exceeds none exactly if none of its places
does (`overrunFrom?_eq_none_iff`).  An integer with too many digits is such a place, wherever in a
text it stands (`readOverrun?_of_long`).

## Main Definitions

* `Scan.reading`: where the interpreter stands when the scanner stands in a given state
* `Limits.Passes`: at no place of a text is a limit exceeded
-/

namespace ReAct.Json

open ReAct.Text

/-! ## Halves of surrogate pairs -/

/-- Inside of a literal, half of a pair that stands alone is refused. -/
theorem stepText_of_splits (controls : Controls) {value : List Char} {escape : Escape} {c : Char}
    (h : (Mode.inText value escape).splits c = true) :
    stepText controls value escape c = .failed := by
  cases escape with
  | plain => cases h
  | backslash => cases h
  | digits left n =>
      cases hd : hexValue? c with
      | none => simp [Mode.splits, hd] at h
      | some d =>
          simp only [Mode.splits, isSecondHalf, hd, Option.any_some, Bool.and_eq_true,
            decide_eq_true_eq] at h
          -- The last digit of a second half that has no first half in front of it.
          obtain ⟨hleft, hlow⟩ := h
          simp only [stepText, hd]
          rw [if_pos hleft, numbered, if_neg (by omega), if_pos hlow]
  | pair high =>
      have hc : c ≠ '\\' := of_decide_eq_true h
      rw [stepText, if_neg hc]
  | pairBackslash high =>
      have hc : c ≠ 'u' := of_decide_eq_true h
      rw [stepText, if_neg hc]
  | pairDigits high left n =>
      cases hd : hexValue? c with
      | none => simp [Mode.splits, hd] at h
      | some d =>
          simp only [Mode.splits, isSecondHalf, hd, Option.any_some, Bool.and_eq_true,
            Bool.not_eq_true', Bool.and_eq_false_iff, decide_eq_true_eq,
            decide_eq_false_iff_not] at h
          -- The last digit of an escape that is no second half, behind a first one.
          obtain ⟨hleft, hnot⟩ := h
          simp only [stepText, hd]
          rw [if_pos hleft, paired, if_neg (by omega)]

/-- The strict reader fails where half of a surrogate pair turns out to stand alone. -/
theorem Scan.step_of_splits (controls : Controls) {s : Scan} {c : Char}
    (h : s.mode.splits c = true) : s.step controls c = ⟨s.tokens, .failed⟩ := by
  obtain ⟨tokens, mode⟩ := s
  cases mode with
  | inText value escape =>
      have hescape : escape ≠ .plain := by
        rintro rfl
        cases h
      rw [step_inText controls tokens value (.inl hescape), stepText_of_splits controls h]
  | _ => cases h

/-- A text that has a value keeps the halves of its surrogate pairs together. -/
theorem meetsHalf_of_value? {controls : Controls} {v : Json} {t : List Char} :
    ∀ {s : Scan}, (t.foldl (Scan.step controls) s).value? = some v →
      s.meetsHalf controls t = false := by
  induction t with
  | nil => exact fun _ => rfl
  | cons c t ih =>
      intro s h
      rw [Scan.meetsHalf, Bool.or_eq_false_iff]
      refine ⟨?_, ih h⟩
      by_contra hsplits
      rw [List.foldl_cons, Scan.step_of_splits controls (by simpa using hsplits),
        Scan.foldl_failed controls rfl] at h
      cases h

theorem whole_of_ofChars? {controls : Controls} {t : List Char} {v : Json}
    (h : ofChars? controls t = some v) : Whole controls t :=
  meetsHalf_of_value? (by rwa [ofChars?_eq] at h)

/-- Where the interpreter stands when the scanner stands in a given state. -/
def Scan.reading (s : Scan) : Reading :=
  ⟨s.mode, dueAfter s.tokens⟩

/-- Everywhere else both readers take the same step. -/
theorem reading_step {controls : Controls} {s : Scan} {c : Char} (h : s.mode.splits c = false) :
    s.reading.step controls c = (s.step controls c).reading := by
  have honto := Scan.step_onto controls ⟨[], s.mode⟩ s.tokens c
  have hstate : Scan.onto ⟨[], s.mode⟩ s.tokens = s := rfl
  rw [hstate] at honto
  rw [honto, Reading.step, Scan.stepLoosely]
  simp only [Scan.reading, h, Bool.false_eq_true, if_false, Scan.onto, dueAfter, List.foldr_append]

/-- Over whole pairs, the interpreter goes the way of the scanner. -/
theorem reading_foldl {controls : Controls} {t : List Char} :
    ∀ {s : Scan}, s.meetsHalf controls t = false →
      t.foldl (Reading.step controls) s.reading =
        (t.foldl (Scan.step controls) s).reading := by
  induction t with
  | nil => exact fun _ => rfl
  | cons c t ih =>
      intro s h
      rw [Scan.meetsHalf, Bool.or_eq_false_iff] at h
      rw [List.foldl_cons, List.foldl_cons, reading_step h.1, ih h.2]

/-- Both readers have the same value at the end. -/
theorem reading_value? (s : Scan) : s.reading.value? = s.value? := by
  obtain ⟨tokens, mode⟩ := s
  cases mode with
  | between => rw [value?_between]; rfl
  | word word => rw [value?_word]; rfl
  | inText value escape => rfl
  | failed => rfl

/-- **Where no half of a pair stands alone, the interpreter reads what the scanner reads.** -/
theorem looseValue?_of_whole {controls : Controls} {t : List Char} (h : Whole controls t) :
    looseValue? controls t = ofChars? controls t := by
  have hstart : Scan.start.reading = {} := rfl
  rw [looseValue?, ← hstart, reading_foldl h, reading_value?, ofChars?_eq]

/-! ## Integers -/

/-- The text of an integer is one run of digits, and only that of zero starts with a zero. -/
theorem leadingDigits_integer {n : Int} (h : n ≠ 0) :
    leadingDigits (integer n) = (natural n.natAbs).length := by
  obtain ⟨c, rest, hnatural, hzero⟩ := natural_head (Int.natAbs_pos.mpr h)
  have hdigit : isAsciiDigit c = true := natural_isAsciiDigit n.natAbs c (by simp [hnatural])
  have hsign : c ≠ '-' := by
    rintro rfl
    cases hdigit
  have hspan := Decimal.spanDigits_self (natural_isAsciiDigit n.natAbs)
  rw [hnatural] at hspan
  unfold integer
  split
  · rw [hnatural]
    simp [leadingDigits, hspan, hzero, isFractional]
  · rw [hnatural]
    simp [leadingDigits, hspan, hsign, hzero, isFractional]

/-! ## Place by place -/

namespace Limits

variable {limits : Limits} {controls : Controls}

/-- At no place of a text, its end apart, is a limit exceeded. -/
def Passes (limits : Limits) (controls : Controls) : Reading → List Char → Prop
  | _, [] => True
  | reading, c :: rest =>
    limits.overrunAt? controls reading c = none ∧
      limits.Passes controls (reading.step controls c) rest

/-- A text is passed part by part. -/
theorem passes_append {reading : Reading} {s t : List Char} :
    limits.Passes controls reading (s ++ t) ↔
      limits.Passes controls reading s ∧
        limits.Passes controls (s.foldl (Reading.step controls) reading) t := by
  induction s generalizing reading with
  | nil => exact (and_iff_right trivial).symm
  | cons c s ih => exact (and_congr_right fun _ => ih).trans and_assoc.symm

/-- **A text exceeds no limit exactly if none of its places does**, and neither does a word at its
end. -/
theorem overrunFrom?_eq_none_iff {reading : Reading} {s : List Char} :
    limits.overrunFrom? controls reading s = none ↔
      limits.Passes controls reading s ∧
        limits.wordOverrun? (s.foldl (Reading.step controls) reading) = none := by
  induction s generalizing reading with
  | nil => exact (and_iff_right trivial).symm
  | cons c s ih =>
      rw [overrunFrom?, Option.orElse_eq_orElse, Option.orElse_eq_or, Option.or_eq_none_iff, ih]
      exact and_assoc.symm

/-! ## Long integers -/

/-- A word that goes on makes no token. -/
theorem step_word_rest (due : Due) (word : List Char) {c : Char} (h : endsWord c = false) :
    Reading.step controls ⟨.word word, due⟩ c = ⟨.word (c :: word), due⟩ := by
  rw [Reading.step, Scan.stepLoosely, if_neg (by exact nofun), Scan.step_word controls [] h]
  rfl

/-- The rest of a word, by induction on it. -/
theorem foldl_word_rest (due : Due) {rest : List Char} :
    ∀ {word : List Char}, (∀ c ∈ rest, endsWord c = false) →
      rest.foldl (Reading.step controls) ⟨.word word, due⟩ =
        ⟨.word (rest.reverse ++ word), due⟩ := by
  induction rest with
  | nil => exact fun _ => rfl
  | cons c rest ih =>
      intro word h
      obtain ⟨hc, hrest⟩ := List.forall_mem_cons.mp h
      rw [List.foldl_cons, step_word_rest due word hc, ih hrest, List.reverse_cons,
        List.append_assoc]
      rfl

/-- A word is followed to its end before anything is due. -/
theorem foldl_word (due : Due) {word : List Char} (hne : word ≠ [])
    (hchars : ∀ c ∈ word, endsWord c = false) :
    word.foldl (Reading.step controls) ⟨.between, due⟩ = ⟨.word word.reverse, due⟩ := by
  cases word with
  | nil => exact absurd rfl hne
  | cons c rest =>
      obtain ⟨hc, hrest⟩ := List.forall_mem_cons.mp hchars
      have hfirst : Reading.step controls ⟨.between, due⟩ c = ⟨.word [c], due⟩ := by
        have hscan := scan_word controls [] (List.cons_ne_nil c [])
          (by simpa using hc)
        rw [List.foldl_cons, List.foldl_nil] at hscan
        rw [Reading.step, Scan.stepLoosely, if_neg (by exact nofun), hscan]
        rfl
      rw [List.foldl_cons, hfirst, foldl_word_rest due hrest, List.reverse_cons]

/-- **A long integer stops the reader** where a value is due, whatever stands before it and behind
it. -/
theorem readOverrun?_of_long {before word after : List Char} {due : Due}
    (hbefore : before.foldl (Reading.step controls) {} = ⟨.between, due⟩)
    (hdue : due.isValue = true) (hne : word ≠ []) (hchars : ∀ c ∈ word, endsWord c = false)
    (hafter : ∀ c ∈ after.head?, endsWord c = true)
    (hlong : limits.digits < leadingDigits word) :
    ∃ overrun, limits.readOverrun? controls (before ++ word ++ after) = some overrun := by
  rw [← Option.isSome_iff_exists, ← Option.ne_none_iff_isSome]
  intro hnone
  -- The word is met as a whole where it ends: at the end of the text, or at the character behind
  -- it.
  have hword : limits.wordOverrun? ⟨.word word.reverse, due⟩ =
      some (.numeral limits.digits (leadingDigits word)) := by
    rw [wordOverrun?]
    simp only [hdue, if_true, List.reverse_reverse, numeralOverrun?, if_pos hlong]
  rw [readOverrun?, List.append_assoc, overrunFrom?_eq_none_iff, passes_append, passes_append,
    List.foldl_append, List.foldl_append, hbefore, foldl_word due hne hchars] at hnone
  obtain ⟨⟨-, -, hrest⟩, hend⟩ := hnone
  cases after with
  | nil =>
      rw [List.foldl_nil, hword] at hend
      cases hend
  | cons c rest =>
      have hc := hafter c rfl
      obtain ⟨hat, -⟩ := hrest
      rw [overrunAt?, if_pos hc, hword] at hat
      cases hat

end Limits

end ReAct.Json
