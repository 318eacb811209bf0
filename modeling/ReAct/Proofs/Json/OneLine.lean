import ReAct.Proofs.Json.RoundTrip

/-!
# Values on one line

The text of a value holds neither a line feed nor a carriage return: strings hold them in escaped
form only, and the blanks between tokens are spaces (`chars_oneLine`).  A file of values, one on a
line, can therefore be cut into its values again.
-/

namespace ReAct.Json

open Text

/-- A text without a line feed or carriage return. -/
def OneLine (s : List Char) : Prop :=
  ∀ c ∈ s, ¬ (c = '\r' ∨ c = '\n')

instance (s : List Char) : Decidable (OneLine s) :=
  List.decidableBAll (fun c => ¬ (c = '\r' ∨ c = '\n')) s

theorem oneLine_append {s t : List Char} (hs : OneLine s) (ht : OneLine t) : OneLine (s ++ t) :=
  List.forall_mem_append.mpr ⟨hs, ht⟩

theorem oneLine_cons {c : Char} {s : List Char} (hc : ¬ (c = '\r' ∨ c = '\n')) (hs : OneLine s) :
    OneLine (c :: s) :=
  List.forall_mem_cons.mpr ⟨hc, hs⟩

/-- Spaces end no line. -/
theorem oneLine_spaces (n : Nat) : OneLine (List.replicate n ' ') := by
  intro c hc
  rw [List.eq_of_mem_replicate hc]
  decide

/-- A word ends no line, because line ends also end words. -/
theorem oneLine_of_isWord {word : List Char} {v : Json} (h : IsWord word v) : OneLine word := by
  rintro c hc (rfl | rfl)
  · exact absurd (h.chars _ hc) (by decide)
  · exact absurd (h.chars _ hc) (by decide)

/-- An escape by number ends no line. -/
theorem oneLine_unitEscape (n : Nat) : OneLine (unitEscape n) :=
  oneLine_cons (by decide) (oneLine_cons (by decide) (forall_mem_hexDigits (by decide) n))

/-- However a character is written, no line ends: a line end itself is written as an escape. -/
theorem oneLine_escaped (asciiOnly : Bool) (c : Char) : OneLine (escaped asciiOnly c) := by
  have hescape := escapeOf_escaped asciiOnly c
  generalize escaped asciiOnly c = text at hescape
  cases hescape with
  | plain _ _ hfeed hreturn => exact oneLine_cons (not_or.mpr ⟨hreturn, hfeed⟩) (by simp [OneLine])
  | short hmark =>
      refine oneLine_cons (by decide) (oneLine_cons ?_ (by simp [OneLine]))
      rintro (rfl | rfl) <;> exact absurd hmark (by decide)
  | unit n => exact oneLine_unitEscape n
  | pair high low => exact oneLine_append (oneLine_unitEscape high) (oneLine_unitEscape low)

theorem oneLine_literal (asciiOnly : Bool) (s : List Char) : OneLine (literal asciiOnly s) := by
  have hbody : OneLine (body asciiOnly s) := by
    intro c hc
    obtain ⟨d, -, hd⟩ := List.mem_flatMap.mp hc
    exact oneLine_escaped asciiOnly d c hd
  exact oneLine_cons (by decide) (oneLine_append hbody (by decide))

/-- The items of a list stand on one line if each of them does. -/
theorem oneLine_items {layout : Layout} (hlayout : layout.Plain) {items : List Json}
    (h : ∀ v ∈ items, OneLine (chars layout v)) : OneLine (itemChars layout items) := by
  obtain ⟨m, n, hbetween, -⟩ := hlayout
  induction items with
  | nil => exact fun c hc => by cases hc
  | cons x rest ih =>
      obtain ⟨hx, hrest⟩ := List.forall_mem_cons.mp h
      cases rest with
      | nil => exact hx
      | cons y rest =>
          rw [itemChars, hbetween]
          exact oneLine_append (oneLine_append hx (oneLine_cons (by decide) (oneLine_spaces m)))
            (ih hrest)

/-- So do the members of an object, by induction on them. -/
theorem oneLine_members {layout : Layout} (hlayout : layout.Plain) {members : Fields Json}
    (h : ∀ entry ∈ members, OneLine (chars layout entry.2)) :
    OneLine (memberChars layout members) := by
  obtain ⟨m, n, hbetween, hafter⟩ := hlayout
  induction members with
  | nil => exact fun c hc => by cases hc
  | cons entry rest ih =>
      obtain ⟨name, x⟩ := entry
      obtain ⟨hx, hrest⟩ := List.forall_mem_cons.mp h
      have hname : OneLine (literal layout.asciiOnly name.toList ++ layout.afterName) := by
        rw [hafter]
        exact oneLine_append (oneLine_literal _ _) (oneLine_cons (by decide) (oneLine_spaces n))
      -- The last member has no separator behind it.
      cases rest with
      | nil =>
          rw [memberChars]
          exact oneLine_append hname hx
      | cons y rest =>
          rw [memberChars, hbetween]
          exact oneLine_append (oneLine_append (oneLine_append hname hx)
            (oneLine_cons (by decide) (oneLine_spaces m))) (ih hrest)

/-- **The text of a value is one line.** -/
theorem chars_oneLine {layout : Layout} (hlayout : layout.Plain) {v : Json} (h : v.Distinct) :
    OneLine (chars layout v) := by
  induction h with
  | null => exact oneLine_of_isWord isWord_null
  | bool value =>
      cases value with
      | true => exact oneLine_of_isWord isWord_true
      | false => exact oneLine_of_isWord isWord_false
  | int value => exact oneLine_of_isWord (isWord_integer value)
  | float value => exact oneLine_of_isWord (isWord_float value)
  | str value => exact oneLine_literal _ _
  | arr _ ih =>
      exact oneLine_cons (by decide) (oneLine_append (oneLine_items hlayout ih) (by decide))
  | obj _ _ ih =>
      exact oneLine_cons (by decide) (oneLine_append (oneLine_members hlayout ih) (by decide))

end ReAct.Json
