import ReAct.Json.Path
import ReAct.Proofs.Fields
import ReAct.Proofs.Json.RoundTrip

/-!
# Walking into values

A path that does not spread over lists can be walked in parts (`walk_append`).  Where it leads
nowhere, so does every longer one (`walk_null`), and what it leads to is no less well-formed than
what it started from (`Distinct.walk`).
-/

namespace ReAct.Json

/-- A step that leads to one value. -/
def Step.Single : Step → Prop
  | .every => False
  | _ => True

/-- From nothing, every path leads to nothing. -/
@[simp] theorem walk_null (path : List Step) : walk path .null = .null := by
  induction path with
  | nil => rfl
  | cons step path ih =>
      cases step with
      | key name => exact ih
      | index n => exact ih
      | every => rfl

/-- A path is walked by walking its parts, if the first one does not spread over lists. -/
theorem walk_append {first : List Step} (h : ∀ step ∈ first, step.Single) (rest : List Step)
    (v : Json) : walk (first ++ rest) v = walk rest (walk first v) := by
  induction first generalizing v with
  | nil => rfl
  | cons step first ih =>
      rw [List.forall_mem_cons] at h
      obtain ⟨hstep, hfirst⟩ := h
      cases step with
      | every => exact hstep.elim
      | key name => exact ih hfirst _
      | index n =>
          cases v with
          | arr items => exact ih hfirst _
          | _ => exact ih hfirst _

/-- A value in which something is found is an object with members. -/
theorem exists_of_member {v : Json} {name : String} (h : v.member name ≠ .null) :
    ∃ members, v = .obj members ∧ members ≠ [] := by
  cases v with
  | obj members =>
      refine ⟨members, rfl, ?_⟩
      rintro rfl
      exact h rfl
  | _ => exact absurd rfl h

/-- A path leads nowhere if it goes through a value in which nothing is found. -/
theorem walk_append_key {first : List Step} (h : ∀ step ∈ first, step.Single) {v : Json}
    (hnone : ¬ ∃ members, walk first v = .obj members ∧ members ≠ []) (name : String)
    (rest : List Step) : walk (first ++ .key name :: rest) v = .null := by
  have hmember : (walk first v).member name = .null := by
    by_contra hfound
    exact hnone (exists_of_member hfound)
  rw [walk_append h, walk, hmember, walk_null]

/-- A member of a value with distinct names is one. -/
theorem Distinct.member {v : Json} (h : v.Distinct) (name : String) : (v.member name).Distinct := by
  cases h with
  | @obj members hnames hmembers =>
      rw [Json.member]
      cases hfound : Fields.get? members name with
      | none => exact .null
      | some found => exact hmembers _ (Fields.mem_of_get? hfound)
  | _ => exact .null

/-- What a path leads to has distinct names if the value has, by induction on the path. -/
theorem Distinct.walk {v : Json} (h : v.Distinct) (path : List Step) : (walk path v).Distinct := by
  induction path generalizing v with
  | nil => exact h
  | cons step path ih =>
      cases step with
      | key name => exact ih (h.member name)
      -- What is not found is null, which has no names at all.
      | index n =>
          cases h with
          | @arr items hitems =>
              refine ih ?_
              cases hfound : items[n]? with
              | none => exact .null
              | some found => exact hitems found (List.mem_of_getElem? hfound)
          | _ => exact ih .null
      -- All that is found below a wildcard makes a list.
      | every =>
          cases h with
          | @arr items hitems =>
              refine .arr fun found hfound => ?_
              obtain ⟨item, hitem, rfl⟩ := List.mem_map.mp (List.mem_of_mem_filter hfound)
              exact ih (hitems item hitem)
          | _ => exact .null

/-! ## Texts -/

/-- A value is read back from its text. -/
theorem read?_print_of_plain {layout : Layout} (hlayout : layout.Plain) {v : Json}
    (h : v.Distinct) : read? (v.print layout) = some v := by
  rw [read?, print, String.toList_ofList]
  exact ofChars?_chars .refused hlayout h

theorem read?_print {v : Json} (h : v.Distinct) : read? (v.print spaced) = some v :=
  read?_print_of_plain spaced_plain h

/-- The members of an object are texts with separators between them. -/
theorem memberChars_eq_intercalate (layout : Layout) (members : Fields Json) :
    memberChars layout members =
      layout.betweenItems.intercalate (members.map fun entry => memberChars layout [entry]) := by
  induction members with
  | nil => rfl
  | cons entry members ih =>
      cases members with
      | nil => simp
      | cons next members =>
          rw [memberChars, ih]
          simp [memberChars]

/-- Texts of values, joined as the items of a list, are read as that list. -/
theorem read?_items {items : List Json} (h : ∀ item ∈ items, item.Distinct) :
    read? ("[" ++ ", ".intercalate (items.map (print spaced)) ++ "]") = some (.arr items) := by
  have hprint : "[" ++ ", ".intercalate (items.map (print spaced)) ++ "]" =
      (Json.arr items).print spaced := by
    rw [← String.toList_inj, print, chars, itemChars_eq_intercalate]
    simp [String.toList_intercalate, print, spaced, Function.comp_def]
  rw [hprint]
  exact read?_print (.arr h)

end ReAct.Json
