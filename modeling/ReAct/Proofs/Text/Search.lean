import Mathlib.Data.List.Infix
import Mathlib.Data.List.TakeWhile
import ReAct.Text.Search

/-!
# What a search finds

The searches of a text say where its parts are: what a search returns is an end of the text that was
searched, and the part that was looked for stands right before it.  Of several occurrences the
leftmost one is found (`afterFirst?_append`).
-/

namespace ReAct.Text

/-- A character is not found where it does not stand. -/
theorem fromChar?_eq_none {c : Char} {s : List Char} : fromChar? c s = none ↔ c ∉ s := by
  induction s with
  | nil => simp [fromChar?]
  | cons d s ih =>
      rw [fromChar?, List.mem_cons, not_or]
      split
      · rename_i hd
        simp [hd]
      · rename_i hd
        rw [ih]
        exact ⟨fun h => ⟨Ne.symm hd, h⟩, And.right⟩

/-- A text without the character is passed over. -/
theorem fromChar?_append {c : Char} {s : List Char} (h : c ∉ s) (t : List Char) :
    fromChar? c (s ++ t) = fromChar? c t := by
  induction s with
  | nil => rfl
  | cons d s ih =>
      rw [List.mem_cons, not_or] at h
      rw [List.cons_append, fromChar?, if_neg (Ne.symm h.1), ih h.2]

/-- The text from a character on is the end of the text. -/
theorem suffix_of_fromChar {c : Char} {s rest : List Char} (h : fromChar? c s = some rest) :
    rest <:+ s := by
  induction s with
  | nil => cases h
  | cons d s ih =>
      rw [fromChar?] at h
      split at h
      · cases h
        exact List.suffix_rfl
      · exact (ih h).trans (List.suffix_cons d s)

/-- What follows an opening is found where the text starts with it. -/
theorem after?_eq_some {opening s rest : List Char} :
    after? opening s = some rest ↔ s = opening ++ rest := by
  induction opening generalizing s with
  | nil => simp [after?]
  | cons p ps ih =>
      cases s with
      | nil => simp [after?]
      | cons c cs =>
          rw [after?]
          split
          · rename_i hpc
            rw [ih, hpc, List.cons_append, List.cons.injEq]
            exact ⟨fun h => ⟨rfl, h⟩, And.right⟩
          · rename_i hpc
            rw [List.cons_append, List.cons.injEq]
            exact ⟨fun h => (by cases h), fun h => absurd h.1.symm hpc⟩

/-- The longest part of a text whose characters satisfy a test, where it is known. -/
theorem span_append {p : Char → Bool} {first rest : List Char} (hfirst : ∀ c ∈ first, p c = true)
    (hrest : ∀ c, rest.head? = some c → p c = false) : (first ++ rest).span p = (first, rest) := by
  rw [List.span_eq_takeWhile_dropWhile, List.takeWhile_append_of_pos hfirst,
    List.dropWhile_append_of_pos hfirst]
  cases rest with
  | nil => simp
  | cons c rest =>
      have hc := hrest c rfl
      simp [hc]

theorem first?_of_eq_some {α : Type} {f : List Char → Option α} {s : List Char} {a : α}
    (h : f s = some a) : first? f s = some a := by
  cases s with
  | nil => exact h
  | cons c s => rw [first?, h]

/-- A part of a text is passed over if nothing is found at any place in it. -/
theorem first?_append {α : Type} {f : List Char → Option α} {s t : List Char}
    (h : ∀ before after, s = before ++ after → after ≠ [] → f (after ++ t) = none) :
    first? f (s ++ t) = first? f t := by
  induction s with
  | nil => rfl
  | cons c s ih =>
      have hhere : f (c :: (s ++ t)) = none := h [] (c :: s) rfl (List.cons_ne_nil c s)
      rw [List.cons_append, first?, hhere]
      refine ih fun before after hsplit hne => h (c :: before) after ?_ hne
      rw [hsplit, List.cons_append]

/-- A search that succeeds only where another one does finds its own result where that one is
first. -/
theorem first?_of_first? {α β : Type} {f : List Char → Option α} {g : List Char → Option β}
    {s : List Char} {a : α} {b : β} (hnone : ∀ t, f t = none → g t = none)
    (hsome : ∀ t, f t = some a → g t = some b) (h : first? f s = some a) :
    first? g s = some b := by
  induction s with
  | nil => exact hsome [] h
  | cons c s ih =>
      rw [first?] at h ⊢
      split at h
      · rename_i found hfound
        cases h
        rw [hsome _ hfound]
      · rename_i hfound
        rw [hnone _ hfound]
        exact ih h

/-- Nothing is found from the front if no end of the text is one. -/
theorem first?_eq_none {α : Type} {f : List Char → Option α} {s : List Char} :
    first? f s = none ↔ ∀ t, t <:+ s → f t = none := by
  induction s with
  | nil =>
      constructor
      · intro h t ht
        rw [List.suffix_nil.mp ht]
        exact h
      · exact fun h => h [] List.suffix_rfl
  | cons c s ih =>
      rw [first?]
      constructor
      · intro h t ht
        split at h
        · cases h
        · rename_i hhere
          rcases List.suffix_cons_iff.mp ht with rfl | ht
          · exact hhere
          · exact ih.mp h t ht
      · intro h
        rw [h _ List.suffix_rfl]
        exact ih.mpr fun t ht => h t (ht.trans (List.suffix_cons c s))

/-- What is found first is found at the start of some end of the text. -/
theorem exists_suffix_of_first? {α : Type} {f : List Char → Option α} {s : List Char} {a : α}
    (h : first? f s = some a) : ∃ t, t <:+ s ∧ f t = some a := by
  induction s with
  | nil => exact ⟨[], List.suffix_rfl, h⟩
  | cons c s ih =>
      rw [first?] at h
      split at h
      · rename_i hfound
        exact ⟨c :: s, List.suffix_rfl, hfound.trans h⟩
      · obtain ⟨t, ht, hfound⟩ := ih h
        exact ⟨t, ht.trans (List.suffix_cons c s), hfound⟩

/-- The place that is found last splits the text. -/
theorem append_of_last? {α : Type} {f : List Char → Option α} {s before : List Char} {a : α}
    (h : last? f s = some (before, a)) : ∃ rest, s = before ++ rest ∧ f rest = some a := by
  induction s generalizing before with
  | nil =>
      obtain ⟨b, hb, heq⟩ := Option.map_eq_some_iff.mp h
      cases heq
      exact ⟨[], rfl, hb⟩
  | cons c s ih =>
      rw [last?] at h
      split at h
      · rename_i inner b hinner
        cases h
        obtain ⟨rest, hs, hrest⟩ := ih hinner
        exact ⟨rest, by rw [hs, List.cons_append], hrest⟩
      · obtain ⟨b, hb, heq⟩ := Option.map_eq_some_iff.mp h
        cases heq
        exact ⟨c :: s, rfl, hb⟩

/-- What precedes the place that is found last is the start of the text. -/
theorem prefix_of_last? {α : Type} {f : List Char → Option α} {s before : List Char} {a : α}
    (h : last? f s = some (before, a)) : before <+: s := by
  obtain ⟨rest, hs, -⟩ := append_of_last? h
  exact ⟨rest, hs.symm⟩

/-- The place that is found last in the end of a text is the last place of the text. -/
theorem last?_append_of_eq_some {α : Type} {f : List Char → Option α} (s : List Char)
    {t before : List Char} {a : α} (h : last? f t = some (before, a)) :
    last? f (s ++ t) = some (s ++ before, a) := by
  induction s with
  | nil => exact h
  | cons c s ih => rw [List.cons_append, last?, ih, List.cons_append]

/-- A part of a text at no place of which anything is found stands before the place that is found
last. -/
theorem last?_append {α : Type} {f : List Char → Option α} {s t : List Char}
    (h : ∀ before after, s = before ++ after → after ≠ [] → f (after ++ t) = none) :
    last? f (s ++ t) = (last? f t).map (Prod.map (s ++ ·) id) := by
  induction s with
  | nil =>
      rw [List.nil_append]
      cases last? f t <;> rfl
  | cons c s ih =>
      have hhere : f (c :: (s ++ t)) = none := h [] (c :: s) rfl (List.cons_ne_nil c s)
      have hlater : ∀ before after, s = before ++ after → after ≠ [] → f (after ++ t) = none := by
        intro before after hsplit hne
        refine h (c :: before) after ?_ hne
        rw [hsplit, List.cons_append]
      rw [List.cons_append, last?, ih hlater, hhere]
      cases last? f t <;> rfl

/-- Nothing is found from the back if no end of the text is one. -/
theorem last?_eq_none {α : Type} {f : List Char → Option α} {s : List Char} :
    last? f s = none ↔ ∀ t, t <:+ s → f t = none := by
  constructor
  · intro h t ht
    obtain ⟨before, rfl⟩ := ht
    rw [Option.eq_none_iff_forall_ne_some]
    intro a ha
    obtain ⟨inner, found, hfound⟩ : ∃ inner found, last? f t = some (inner, found) := by
      cases t with
      | nil => exact ⟨[], a, by rw [last?, ha]; rfl⟩
      | cons c t =>
          rw [last?, ha]
          split
          · exact ⟨_, _, rfl⟩
          · exact ⟨_, _, rfl⟩
    rw [last?_append_of_eq_some before hfound] at h
    cases h
  · intro h
    induction s with
    | nil => rw [last?, h [] List.suffix_rfl, Option.map_none]
    | cons c s ih =>
        rw [last?, ih fun t ht => h t (ht.trans (List.suffix_cons c s)), h _ List.suffix_rfl]
        rfl

/-- Nothing is replaced in a text without the first character of what is looked for. -/
theorem replaceAll_of_notMem {n : Char} {s : List Char} (h : n ∉ s) (ns instead : List Char) :
    replaceAll n ns instead s = s := by
  unfold replaceAll
  induction s with
  | nil => rfl
  | cons c s ih =>
      rw [List.mem_cons, not_or] at h
      rw [replaceAll.go, after?, if_neg h.1, ih h.2]
      rfl

/-- A part without the second character of what is looked for, two characters, is left as it is. -/
theorem replaceAll_append_of_notMem {n m : Char} {s t : List Char} (hs : m ∉ s)
    (ht : t.head? ≠ some m) (instead : List Char) :
    replaceAll n [m] instead (s ++ t) = s ++ replaceAll n [m] instead t := by
  unfold replaceAll
  induction s with
  | nil => rfl
  | cons c s ih =>
      rw [List.mem_cons, not_or] at hs
      have hnone : after? [n, m] (c :: (s ++ t)) = none := by
        rw [Option.eq_none_iff_forall_ne_some]
        intro rest hrest
        have htail := (List.cons.inj (after?_eq_some.mp hrest)).2
        cases s with
        | nil => exact ht (by rw [← List.nil_append t, htail]; rfl)
        | cons d s => exact hs.2 ((List.cons.inj htail).1 ▸ List.mem_cons_self)
      rw [List.cons_append, replaceAll.go, hnone, ih hs.2]
      rfl

/-- Replacing by single characters does not make a text longer. -/
theorem length_replaceAll_le (n : Char) (ns : List Char) (c : Char) (s : List Char) :
    (replaceAll n ns [c] s).length ≤ s.length := by
  suffices h : ∀ skip, (replaceAll.go n ns [c] s skip).length ≤ s.length from h 0
  induction s with
  | nil => exact fun _ => Nat.le_refl 0
  | cons d s ih =>
      intro skip
      cases skip with
      | succ skip => exact Nat.le_succ_of_le (ih skip)
      | zero =>
          rw [replaceAll.go]
          split
          · exact Nat.succ_le_succ (ih _)
          · exact Nat.succ_le_succ (ih 0)

/-- The leftmost occurrence comes first: what follows another one is an end of what follows it. -/
theorem afterFirst?_append (needle before after : List Char) :
    ∃ rest, afterFirst? needle (before ++ needle ++ after) = some rest ∧ after <:+ rest := by
  induction before with
  | nil => exact ⟨after, first?_of_eq_some (after?_eq_some.mpr rfl), List.suffix_rfl⟩
  | cons c before ih =>
      rw [List.cons_append, List.cons_append, afterFirst?, first?]
      split
      · rename_i rest hrest
        rw [after?_eq_some] at hrest
        refine ⟨rest, rfl, ?_⟩
        have hlength := congrArg List.length hrest
        simp only [List.length_cons, List.length_append] at hlength
        have hsuffix : after <:+ needle ++ rest :=
          ⟨c :: (before ++ needle), by rw [← hrest, List.cons_append]⟩
        exact List.suffix_of_suffix_length_le hsuffix (List.suffix_append needle rest) (by omega)
      · exact ih

/-- What is found stands in the text. -/
theorem append_of_afterFirst? {needle s rest : List Char} (h : afterFirst? needle s = some rest) :
    ∃ before, s = before ++ needle ++ rest := by
  induction s with
  | nil =>
      have hnil : after? needle [] = some rest := h
      exact ⟨[], after?_eq_some.mp hnil⟩
  | cons c s ih =>
      rw [afterFirst?, first?] at h
      split at h
      · rename_i hafter
        cases h
        exact ⟨[], after?_eq_some.mp hafter⟩
      · obtain ⟨before, hbefore⟩ := ih h
        exact ⟨c :: before, by rw [hbefore]; rfl⟩

/-- What is looked for and does not occur in a text is found right behind it, or across its end: at
most an end of what was looked for is left of it. -/
theorem afterFirst?_of_not_infix {needle before : List Char} (h : ¬ needle <:+: before)
    (after : List Char) :
    ∃ more, more <:+ needle ∧
      afterFirst? needle (before ++ needle ++ after) = some (more ++ after) := by
  obtain ⟨rest, hrest, more, rfl⟩ := afterFirst?_append needle before after
  refine ⟨more, ?_, hrest⟩
  obtain ⟨first, hfirst⟩ := append_of_afterFirst? hrest
  have hsame : before ++ needle = first ++ needle ++ more := by
    rw [← List.append_assoc] at hfirst
    exact List.append_cancel_right hfirst
  -- The occurrence that was found ends behind the text, or it would occur in it.
  have hlength : more.length ≤ needle.length := by
    by_contra hlong
    have hprefix : first ++ needle <+: before := by
      refine List.prefix_of_prefix_length_le ⟨more, hsame.symm⟩ ⟨needle, rfl⟩ ?_
      have hlengths := congrArg List.length hsame
      simp only [List.length_append] at hlengths ⊢
      omega
    exact h ((List.suffix_append first needle).isInfix.trans hprefix.isInfix)
  exact List.suffix_of_suffix_length_le ⟨first ++ needle, hsame.symm⟩ ⟨before, rfl⟩ hlength

/-! ## Occurrences -/

/-- What occurs in a text, and does not have one of its characters, occurs before or behind it. -/
theorem infix_of_infix_append_cons {needle s t : List Char} {c : Char} (hc : c ∉ needle)
    (h : needle <:+: s ++ c :: t) : needle <:+: s ∨ needle <:+: t := by
  obtain ⟨before, after, heq⟩ := h
  rcases List.append_eq_append_iff.mp heq with ⟨inner, hs, -⟩ | ⟨inner, hbefore, hafter⟩
  · exact .inl ⟨before, inner, hs.symm⟩
  cases inner with
  | nil => exact .inl ⟨before, [], by simpa using hbefore⟩
  | cons d inner =>
      obtain ⟨rfl, rfl⟩ := List.cons.inj hafter
      rcases List.append_eq_append_iff.mp hbefore with ⟨first, -, hneedle⟩ | ⟨first, -, hneedle⟩
      · exact absurd (hneedle ▸ List.mem_append_right first List.mem_cons_self) hc
      · cases first with
        | nil =>
            rw [List.nil_append] at hneedle
            exact absurd (hneedle ▸ List.mem_cons_self) hc
        | cons e first =>
            obtain ⟨-, rfl⟩ := List.cons.inj hneedle
            exact .inr ⟨first, after, rfl⟩

/-- What has no character in common with a part of a text occurs before or behind that part. -/
theorem infix_of_infix_append {needle s part t : List Char} (hne : part ≠ [])
    (hpart : ∀ c ∈ part, c ∉ needle) (h : needle <:+: s ++ part ++ t) :
    needle <:+: s ∨ needle <:+: t := by
  induction part generalizing s with
  | nil => exact absurd rfl hne
  | cons c part ih =>
      obtain ⟨hc, hpart⟩ := List.forall_mem_cons.mp hpart
      rw [List.append_assoc, List.cons_append] at h
      rcases infix_of_infix_append_cons hc h with hs | hmore
      · exact .inl hs
      cases part with
      | nil => exact .inr hmore
      | cons d part =>
          rcases @ih [] (List.cons_ne_nil d part) hpart hmore with hnil | ht
          · exact .inl (hnil.trans List.nil_infix)
          · exact .inr ht

end ReAct.Text
