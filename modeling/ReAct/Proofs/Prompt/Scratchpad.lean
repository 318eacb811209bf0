import Mathlib.Algebra.Order.BigOperators.Group.List
import Mathlib.Algebra.Order.Group.Nat
import ReAct.Proofs.Template.Cut
import ReAct.Proofs.Text.Stretches
import ReAct.Prompt.Assembly

/-!
# Filling the scratchpad

The scratchpad is filled into a prompt that was assembled before, on every call of the model.  This
second pass does not know which placeholders were written in a template and which came with a
value.  It puts the scratchpad in its places and changes nothing else exactly if no text around the
scratchpads has a placeholder that the second pass fills, and none of them ends within a placeholder
(`padded_intercalate_iff`).

## Main Definitions

* `padded`: what the second pass makes of a prompt
* `IsPad`: the placeholders of the scratchpad, which the second pass fills
* `Clear`: stretches of text between scratchpads in which the second pass finds nothing to fill
-/

namespace ReAct.Prompt

open Template Text

/-! ## The second pass -/

/-- The placeholder of the scratchpad. -/
def padHole : Piece :=
  .hole scratchpadKey.toList none

/-- The placeholder of the scratchpad as it is written. -/
def padMark : List Char :=
  padHole.source parametersOpening.toList

/-- What the second pass makes of one piece. -/
def padPiece (pad : List Char) : Piece → List Char :=
  Piece.fill parametersOpening.toList (fun key => if scratchpadKey = key then some pad else none)
    .stays

/-- What the second pass makes of a prompt. -/
def padded (pad prompt : List Char) : List Char :=
  (cut parametersOpening.toList prompt).flatMap (padPiece pad)

/-- The scratchpad is put into the pieces of the prompt. -/
theorem renderScratchpad_eq (prompt scratchpad : String) :
    renderScratchpad prompt scratchpad =
      String.ofList (padded scratchpad.toList prompt.toList) := by
  have hvalue : (fun key => (Fields.get? [(scratchpadKey, scratchpad)] key).map String.toList) =
      fun key => if scratchpadKey = key then some scratchpad.toList else none := by
    funext key
    by_cases hkey : scratchpadKey = key <;> simp [Fields.get?, hkey]
  rw [renderScratchpad, fill, hvalue]
  rfl

theorem scratchpadKey_ne {key : List Char} (h : key ≠ scratchpadKey.toList) :
    scratchpadKey ≠ String.ofList key := by
  rintro heq
  rw [heq, String.toList_ofList] at h
  exact h rfl

/-- A piece that the second pass leaves alone. -/
def Inert : Piece → Prop
  | .char _ => True
  | .hole key default => key ≠ scratchpadKey.toList ∧ default = none

/-- A piece that is no scratchpad stays as it is written. -/
theorem padPiece_of_inert {piece : Piece} (h : Inert piece) (pad : List Char) :
    padPiece pad piece = piece.source parametersOpening.toList := by
  cases piece with
  | char c => rfl
  | hole key default =>
      obtain ⟨hkey, rfl⟩ := h
      simp [padPiece, Piece.fill, scratchpadKey_ne hkey]

@[simp] theorem padPiece_padHole (pad : List Char) : padPiece pad padHole = pad := by
  simp [padPiece, padHole, Piece.fill]

/-- A placeholder of the scratchpad, with a default or without one. -/
def IsPad : Piece → Prop
  | .char _ => False
  | .hole key _ => key = scratchpadKey.toList

instance : DecidablePred IsPad
  | .char _ => .isFalse id
  | .hole _ _ => inferInstanceAs (Decidable (_ = _))

@[simp] theorem not_isPad_char (c : Char) : ¬ IsPad (.char c) :=
  id

@[simp] theorem isPad_hole {key : List Char} {default : Option (List Char)} :
    IsPad (.hole key default) ↔ key = scratchpadKey.toList :=
  Iff.rfl

@[simp] theorem isPad_padHole : IsPad padHole :=
  isPad_hole.mpr rfl

/-- What a piece stands for that has no value: itself or its default. -/
def bare : Piece → List Char :=
  Piece.fill parametersOpening.toList (fun _ => none) .stays

/-- The second pass fills the scratchpads, and the rest it renders alike for every scratchpad. -/
theorem padPiece_eq (pad : List Char) (piece : Piece) :
    padPiece pad piece = if IsPad piece then pad else bare piece := by
  cases piece with
  | char c => rfl
  | hole key default =>
      by_cases hkey : key = scratchpadKey.toList
      · subst hkey
        simp [padPiece, Piece.fill]
      · simp [padPiece, bare, Piece.fill, hkey, scratchpadKey_ne hkey]

/-- A prompt whose only scratchpad stands at its end goes on with the scratchpad. -/
theorem padded_of_last {prompt : List Char} {before : List Piece} {last : Piece}
    (hcut : cut parametersOpening.toList prompt = before ++ [last]) (hlast : IsPad last)
    (hbefore : ∀ piece ∈ before, ¬ IsPad piece) (pad : List Char) :
    padded pad prompt = before.flatMap bare ++ pad := by
  have hrest : before.flatMap (padPiece pad) = before.flatMap bare :=
    List.flatMap_congr fun piece hpiece =>
      (padPiece_eq pad piece).trans (if_neg (hbefore piece hpiece))
  rw [padded, hcut, List.flatMap_append, hrest, List.flatMap_singleton, padPiece_eq, if_pos hlast]

/-- A placeholder with a default is longer than what the second pass puts in its place, if the
scratchpad is the placeholder itself. -/
theorem length_padPiece_lt (key text : List Char) :
    (padPiece padMark (.hole key (some text))).length <
      ((Piece.hole key (some text)).source parametersOpening.toList).length := by
  by_cases hkey : key = scratchpadKey.toList
  · subst hkey
    simp [padPiece, Piece.fill, padMark, padHole, Piece.source]
  · simp [padPiece, Piece.fill, scratchpadKey_ne hkey, Piece.source]
    omega

/-- With the mark for a scratchpad, no piece gets longer. -/
theorem length_padPiece_le (piece : Piece) :
    (padPiece padMark piece).length ≤ (piece.source parametersOpening.toList).length := by
  cases piece with
  | char c => exact Nat.le_refl _
  | hole key default =>
      cases default with
      | some text => exact Nat.le_of_lt (length_padPiece_lt key text)
      | none =>
          by_cases hkey : key = scratchpadKey.toList
          · subst hkey
            exact Nat.le_of_eq (congrArg List.length (padPiece_padHole padMark))
          · have hinert : Inert (.hole key none) := ⟨hkey, rfl⟩
            rw [padPiece_of_inert hinert]

/-! ## Stretches of text -/

/-- Stretches of text around scratchpads in which the second pass finds nothing to fill, and none of
which, when a scratchpad follows, ends within a placeholder. -/
def Clear (stretches : List (List Char)) : Prop :=
  (∀ s ∈ stretches, ∀ piece ∈ cut parametersOpening.toList s, Inert piece) ∧
    ∀ s ∈ stretches.dropLast, ¬ Unclosed parametersOpening.toList s

theorem flatMap_padPiece_of_inert {pieces : List Piece} (h : ∀ piece ∈ pieces, Inert piece)
    (pad : List Char) :
    pieces.flatMap (padPiece pad) = pieces.flatMap (Piece.source parametersOpening.toList) :=
  List.flatMap_congr fun piece hpiece => padPiece_of_inert (h piece hpiece) pad

/-- Texts that do not end within a placeholder are cut apart at the scratchpads between them. -/
theorem cut_intercalate_padMark {stretches : List (List Char)}
    (h : ∀ s ∈ stretches.dropLast, ¬ Unclosed parametersOpening.toList s) :
    cut parametersOpening.toList (padMark.intercalate stretches) =
      [padHole].intercalate (stretches.map (cut parametersOpening.toList)) := by
  -- No stretch but the last is left open, so each mark is cut as a hole of its own.
  induction stretches with
  | nil => rfl
  | cons t ts ih =>
      cases ts with
      | nil => simp
      | cons u us =>
          rw [List.dropLast_cons_of_ne_nil (by simp), List.forall_mem_cons] at h
          have hproper : padHole.Proper := ⟨by decide, List.all_eq_true.mp (by decide), by simp⟩
          have hmark (rest : List Char) : hole? parametersOpening.toList (padMark ++ rest) =
              some (padHole, rest) :=
            hole?_eq_some.mpr ⟨_, _, rfl, hproper, rfl⟩
          obtain ⟨mark, hdollar⟩ : ∃ mark, padMark = '$' :: mark := ⟨_, rfl⟩
          rw [List.intercalate_cons_cons, List.append_assoc, hdollar, List.cons_append,
            cut_append parametersOpening_isOpening h.1, ← List.cons_append, ← hdollar,
            cut_of_hole? (hmark _), ih h.2]
          simp

/-- A prompt is cut at its scratchpads into stretches that the second pass does not take apart. -/
theorem clear_of_cut {s : List Char} {groups : List (List Piece)}
    (hcut : cut parametersOpening.toList s = [padHole].intercalate groups)
    (hinert : ∀ group ∈ groups, ∀ piece ∈ group, Inert piece) :
    Clear (groups.map fun group => group.flatMap (Piece.source parametersOpening.toList)) := by
  induction groups generalizing s with
  | nil => exact ⟨by simp, by simp⟩
  | cons group groups ih =>
      -- A hole can only be found where the text before it has closed.
      rw [List.forall_mem_cons] at hinert
      cases groups with
      | nil =>
          rw [List.intercalate_singleton] at hcut
          refine ⟨?_, by simp⟩
          simp only [List.map_cons, List.map_nil, List.forall_mem_singleton]
          rw [← hcut, source_cut, hcut]
          exact hinert.1
      | cons next groups =>
          rw [List.intercalate_cons_cons, List.append_assoc] at hcut
          obtain ⟨hgroup, hclosed, hrest⟩ := cut_before_hole parametersOpening_isOpening hcut
          obtain ⟨huntouched, hends⟩ := ih hrest hinert.2
          rw [List.map_cons]
          refine ⟨List.forall_mem_cons.mpr ⟨?_, huntouched⟩, ?_⟩
          · rw [hgroup]
            exact hinert.1
          · rw [List.dropLast_cons_of_ne_nil (by simp)]
            exact List.forall_mem_cons.mpr ⟨hclosed, hends⟩

/-- **When the second pass fills the scratchpads and nothing else.**  Whatever the scratchpad, the
second pass puts it between the stretches of a prompt exactly if these are clear. -/
theorem padded_intercalate_iff {stretches : List (List Char)} (hne : stretches ≠ []) :
    (∀ pad, padded pad (padMark.intercalate stretches) = pad.intercalate stretches) ↔
      Clear stretches := by
  constructor
  · intro h
    obtain ⟨groups, hgroups, hcut, hmem⟩ := exists_intercalate padHole
      (cut parametersOpening.toList (padMark.intercalate stretches))
    -- The scratchpad in the place of the scratchpad changes nothing, so there are no defaults.
    have hinert : ∀ group ∈ groups, ∀ piece ∈ group, Inert piece := by
      intro group hgroup piece hpiece
      cases piece with
      | char c => exact trivial
      | hole key default =>
          cases default with
          | none =>
              refine ⟨?_, rfl⟩
              rintro rfl
              exact hmem group hgroup hpiece
          | some text =>
              refine absurd (congrArg List.length (h padMark)) (Nat.ne_of_lt ?_)
              conv_rhs => rw [← source_cut parametersOpening.toList (padMark.intercalate stretches)]
              rw [padded, List.length_flatMap, List.length_flatMap]
              refine List.sum_lt_sum _ _ (fun piece _ => length_padPiece_le piece)
                ⟨_, ?_, length_padPiece_lt key text⟩
              rw [hcut]
              exact mem_intercalate [padHole] hgroup hpiece
    have hpadded (pad : List Char) : pad.intercalate stretches =
        pad.intercalate (groups.map fun group =>
          group.flatMap (Piece.source parametersOpening.toList)) := by
      rw [← h pad, padded, hcut, flatMap_intercalate, padPiece_padHole]
      congr 1
      exact List.map_congr_left fun group hgroup =>
        flatMap_padPiece_of_inert (hinert group hgroup) pad
    have : Nontrivial Char := ⟨'a', 'b', by decide⟩
    rw [eq_of_forall_intercalate_eq hne (by simpa using hgroups) hpadded]
    exact clear_of_cut hcut hinert
  · rintro ⟨hinert, hclosed⟩ pad
    rw [padded, cut_intercalate_padMark hclosed, flatMap_intercalate, padPiece_padHole,
      List.map_map]
    congr 1
    conv_rhs => rw [← List.map_id stretches]
    refine List.map_congr_left fun s hs => ?_
    exact (flatMap_padPiece_of_inert (hinert s hs) pad).trans (source_cut _ s)

end ReAct.Prompt
