import Mathlib.Data.List.Basic

/-!
# Texts around a gap

A text with gaps is the list of the stretches around them, and filling the gaps is `intercalate`.
What follows is about that function: it goes through a `flatMap` (`flatMap_intercalate`), every
list has stretches between the occurrences of a member (`exists_intercalate`), and texts that agree
whatever is put in their gaps have the same stretches (`eq_of_forall_intercalate_eq`).

## Main Definitions

* `Gapped`: a text that depends on what is put in its gaps
-/

namespace ReAct.Text

variable {α β : Type}

/-- The text before the first gap comes first. -/
theorem intercalate_append_cons (pad first last : List α) (rest : List (List α)) :
    pad.intercalate ((first ++ last) :: rest) = first ++ pad.intercalate (last :: rest) := by
  cases rest <;> simp

/-- A joined text begins with the first of its parts. -/
theorem prefix_intercalate (pad first : List α) (rest : List (List α)) :
    first <+: pad.intercalate (first :: rest) := by
  cases rest with
  | nil => simp
  | cons next rest =>
      rw [List.intercalate_cons_cons, List.append_assoc]
      exact List.prefix_append first _

/-- What is in a group is in the whole. -/
theorem mem_intercalate {x : α} {group : List α} (pad : List α) {groups : List (List α)}
    (hgroup : group ∈ groups) (hx : x ∈ group) : x ∈ pad.intercalate groups := by
  induction groups with
  | nil => cases hgroup
  | cons first groups ih =>
      cases groups with
      | nil => simpa [List.mem_singleton.mp hgroup] using hx
      | cons next groups =>
          rw [List.intercalate_cons_cons, List.mem_append, List.mem_append]
          rcases List.mem_cons.mp hgroup with rfl | hrest
          · exact .inl (.inl hx)
          · exact .inr (ih hrest)

theorem flatMap_intercalate (f : α → List β) (a : α) (groups : List (List α)) :
    ([a].intercalate groups).flatMap f =
      (f a).intercalate (groups.map fun group => group.flatMap f) := by
  induction groups with
  | nil => rfl
  | cons group groups ih =>
      cases groups with
      | nil => simp
      | cons next groups =>
          rw [List.intercalate_cons_cons, List.flatMap_append, List.flatMap_append, ih,
            List.flatMap_singleton]
          simp

/-- Every list is groups with one element between them, in which that element is not. -/
theorem exists_intercalate [DecidableEq α] (a : α) (xs : List α) :
    ∃ groups, groups ≠ [] ∧ xs = [a].intercalate groups ∧ ∀ group ∈ groups, a ∉ group := by
  induction xs with
  | nil => exact ⟨[[]], by simp, by simp, by simp⟩
  | cons x xs ih =>
      obtain ⟨groups, hne, rfl, hmem⟩ := ih
      by_cases hx : x = a
      · refine ⟨[] :: groups, by simp, ?_, ?_⟩
        · rw [List.intercalate_cons_of_ne_nil hne, hx]
          rfl
        · simpa using hmem
      · cases groups with
        | nil => exact absurd rfl hne
        | cons group groups =>
            refine ⟨(x :: group) :: groups, by simp, by simp, ?_⟩
            simp only [List.mem_cons, forall_eq_or_imp] at hmem ⊢
            exact ⟨not_or.mpr ⟨Ne.symm hx, hmem.1⟩, hmem.2⟩

/-- A text that every other text starts like, as far as that goes, is empty. -/
theorem eq_nil_of_forall_append [Nontrivial α] {more : List α}
    (h : ∀ pad : List α, ∃ a b, more ++ a = pad ++ b) : more = [] := by
  cases more with
  | nil => rfl
  | cons x more =>
      obtain ⟨y, hy⟩ := exists_ne x
      obtain ⟨a, b, heq⟩ := h [y]
      exact absurd (List.cons.inj heq).1.symm hy

/-- A text without a gap does not depend on what is put in the gaps. -/
theorem intercalate_ne_of_gap [Nontrivial α] (t u v : List α) (us : List (List α)) :
    ∃ pad : List α, t ≠ pad.intercalate (u :: v :: us) := by
  obtain ⟨x⟩ : Nonempty α := inferInstance
  refine ⟨List.replicate (t.length + 1) x, fun heq => ?_⟩
  have hlength := congrArg List.length heq
  simp only [List.intercalate_cons_cons, List.length_append, List.length_replicate] at hlength
  omega

/-- **The stretches are determined by the text.**  Texts that are equal whatever is put in their
gaps have the same stretches around the gaps. -/
theorem eq_of_forall_intercalate_eq [Nontrivial α] {ts us : List (List α)} (hts : ts ≠ [])
    (hus : us ≠ []) (h : ∀ pad : List α, pad.intercalate ts = pad.intercalate us) : ts = us := by
  induction ts generalizing us with
  | nil => exact absurd rfl hts
  | cons t ts ih =>
      obtain - | ⟨u, us⟩ := us
      · exact absurd rfl hus
      obtain - | ⟨t', ts⟩ := ts <;> obtain - | ⟨u', us⟩ := us
      · simpa using h []
      · obtain ⟨pad, hpad⟩ := intercalate_ne_of_gap t u u' us
        exact absurd (by simpa using h pad) hpad
      · obtain ⟨pad, hpad⟩ := intercalate_ne_of_gap u t t' ts
        exact absurd (by simpa using (h pad).symm) hpad
      · simp only [List.intercalate_cons_cons, List.append_assoc] at h
        -- One of the two first stretches starts with the other; nothing can be left of it.
        have hfirst : t = u := by
          rcases List.append_eq_append_iff.mp (h []) with ⟨more, rfl, -⟩ | ⟨more, rfl, -⟩
          · have hmore : more = [] := eq_nil_of_forall_append fun pad =>
              ⟨_, _, (List.append_cancel_left ((h pad).trans (List.append_assoc ..))).symm⟩
            simp [hmore]
          · have hmore : more = [] := eq_nil_of_forall_append fun pad =>
              ⟨_, _, List.append_cancel_left ((List.append_assoc ..).symm.trans (h pad))⟩
            simp [hmore]
        subst hfirst
        have hrest : t' :: ts = u' :: us := ih (by simp) (by simp) fun pad =>
          List.append_cancel_left (List.append_cancel_left (h pad))
        rw [hrest]

/-! ## Texts with gaps -/

/-- A text that depends on what is put in its gaps, and on nothing else. -/
def Gapped (text : List α → List α) : Prop :=
  ∃ stretches, stretches ≠ [] ∧ ∀ pad, text pad = pad.intercalate stretches

namespace Gapped

/-- A text without gaps. -/
theorem const (t : List α) : Gapped fun _ => t :=
  ⟨[t], by simp, by simp⟩

/-- The gap alone. -/
theorem gap : Gapped fun pad : List α => pad :=
  ⟨[[], []], by simp, by simp⟩

/-- Two texts that vary in their gaps only, one after the other. -/
theorem append {text other : List α → List α} (htext : Gapped text) (hother : Gapped other) :
    Gapped fun pad => text pad ++ other pad := by
  obtain ⟨ts, hts, htext⟩ := htext
  obtain ⟨us, hus, hother⟩ := hother
  simp only [htext, hother]
  clear htext hother
  induction ts with
  | nil => exact absurd rfl hts
  | cons t ts ih =>
      cases ts with
      | nil =>
          obtain - | ⟨u, us⟩ := us
          · exact absurd rfl hus
          · exact ⟨(t ++ u) :: us, by simp, by simp [intercalate_append_cons]⟩
      | cons t' ts =>
          obtain ⟨both, hboth, heq⟩ := ih (by simp)
          refine ⟨t :: both, by simp, fun pad => ?_⟩
          beta_reduce at heq ⊢
          rw [List.intercalate_cons_cons, List.append_assoc, heq,
            List.intercalate_cons_of_ne_nil hboth]

theorem flatMap {text : List α → β → List α} (parts : List β)
    (h : ∀ part ∈ parts, Gapped fun pad => text pad part) :
    Gapped fun pad => parts.flatMap (text pad) := by
  induction parts with
  | nil => exact const []
  | cons part parts ih =>
      rw [List.forall_mem_cons] at h
      simp only [List.flatMap_cons]
      exact h.1.append (ih h.2)

end Gapped

end ReAct.Text
