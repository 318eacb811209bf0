import ReAct.Json.Printer
import ReAct.Proofs.Fields
import ReAct.Proofs.Template.Cut

/-!
# What a filled template is

Filling a template is cutting it and writing something for every part.  How a template may be cut
is a grammar (`Segmentation`): from the left, a placeholder wherever one starts, and otherwise one
literal character.  There is exactly one way to do so, and it has nothing to do with values
(`segmentation_iff`).  What is written for a part depends on the values, but on nothing that is
written for another one (`Shows`), so a text that comes with a value is never examined
(`fill_segmentation`).

## Main Definitions

* `Placeholder`: how a placeholder is written
* `Segmentation`: a template cut into literal characters and placeholders
* `Shows`: what is written for a part of a template
-/

namespace ReAct.Template

variable {opening : List Char}

/-- The text of a placeholder with a key and possibly a default. -/
inductive Placeholder (opening : List Char) : (key : List Char) → (default : Option (List Char)) →
    (text : List Char) → Prop
  | plain {key : List Char} (hne : key ≠ []) (hkey : '\x7d' ∉ key ∧ ':' ∉ key) :
      Placeholder opening key none (opening ++ key ++ ['\x7d'])
  | defaulted {key default : List Char} (hne : key ≠ []) (hkey : '\x7d' ∉ key ∧ ':' ∉ key)
      (hdefault : '\x7d' ∉ default) :
      Placeholder opening key (some default) (opening ++ key ++ ':' :: '-' :: default ++ ['\x7d'])

/-- A template cut from the left.  A character is a literal only if no placeholder starts there. -/
inductive Segmentation (opening : List Char) : (template : List Char) → List Piece → Prop
  | done : Segmentation opening [] []
  | literal {c : Char} {rest : List Char} {pieces : List Piece}
      (hnone : ∀ key default text behind, Placeholder opening key default text →
        c :: rest ≠ text ++ behind)
      (h : Segmentation opening rest pieces) : Segmentation opening (c :: rest) (.char c :: pieces)
  | placeholder {key text rest : List Char} {default : Option (List Char)} {pieces : List Piece}
      (htext : Placeholder opening key default text) (h : Segmentation opening rest pieces) :
      Segmentation opening (text ++ rest) (.hole key default :: pieces)

/-! ## One way to cut a template -/

/-- A key goes on up to a brace or a colon. -/
theorem forall_isKeyChar_iff {key : List Char} :
    (∀ c ∈ key, isKeyChar c = true) ↔ '\x7d' ∉ key ∧ ':' ∉ key := by
  constructor
  · intro h
    exact ⟨fun hmem => absurd (h _ hmem) (by decide), fun hmem => absurd (h _ hmem) (by decide)⟩
  · rintro ⟨hbrace, hcolon⟩ c hc
    have hne : c ≠ '\x7d' ∧ c ≠ ':' :=
      ⟨ne_of_mem_of_not_mem hc hbrace, ne_of_mem_of_not_mem hc hcolon⟩
    simpa [isKeyChar] using hne

/-- A default goes on up to a brace. -/
theorem forall_isDefaultChar_iff {text : List Char} :
    (∀ c ∈ text, isDefaultChar c = true) ↔ '\x7d' ∉ text := by
  constructor
  · exact fun h hmem => absurd (h _ hmem) (by decide)
  · intro hbrace c hc
    simpa [isDefaultChar] using ne_of_mem_of_not_mem hc hbrace

/-- A proper placeholder as it is written. -/
theorem placeholder_iff {key text : List Char} {default : Option (List Char)} :
    Placeholder opening key default text ↔
      (Piece.hole key default).Proper ∧ text = (Piece.hole key default).source opening := by
  constructor
  · intro h
    cases h with
    | plain hne hkey => exact ⟨⟨hne, forall_isKeyChar_iff.mpr hkey, by simp⟩, rfl⟩
    | defaulted hne hkey hdefault =>
        refine ⟨⟨hne, forall_isKeyChar_iff.mpr hkey, fun other hother => ?_⟩, rfl⟩
        cases hother
        exact forall_isDefaultChar_iff.mpr hdefault
  · rintro ⟨⟨hne, hkey, hdefault⟩, rfl⟩
    rw [forall_isKeyChar_iff] at hkey
    cases default with
    | none => exact .plain hne hkey
    | some text => exact .defaulted hne hkey (forall_isDefaultChar_iff.mp (hdefault text rfl))

/-- A placeholder is recognised, whatever follows it. -/
theorem hole?_of_placeholder {key text : List Char} {default : Option (List Char)}
    (h : Placeholder opening key default text) (rest : List Char) :
    hole? opening (text ++ rest) = some (.hole key default, rest) := by
  obtain ⟨hproper, rfl⟩ := placeholder_iff.mp h
  exact hole?_eq_some.mpr ⟨key, default, rfl, hproper, rfl⟩

/-- What is recognised is a placeholder. -/
theorem placeholder_of_hole? {s rest : List Char} {piece : Piece}
    (h : hole? opening s = some (piece, rest)) :
    ∃ key default text, piece = .hole key default ∧ Placeholder opening key default text ∧
      s = text ++ rest := by
  obtain ⟨key, default, rfl, hproper, rfl⟩ := hole?_eq_some.mp h
  exact ⟨key, default, _, rfl, placeholder_iff.mpr ⟨hproper, rfl⟩, rfl⟩

/-- No placeholder starts where none is found. -/
theorem hole?_eq_none_iff {s : List Char} :
    hole? opening s = none ↔
      ∀ key default text behind, Placeholder opening key default text → s ≠ text ++ behind := by
  constructor
  · rintro hnone key default text behind htext rfl
    rw [hole?_of_placeholder htext] at hnone
    cases hnone
  · intro hnone
    rw [Option.eq_none_iff_forall_ne_some]
    rintro ⟨piece, rest⟩ hsome
    obtain ⟨key, default, text, -, htext, hs⟩ := placeholder_of_hole? hsome
    exact hnone key default text rest htext hs

/-- The cut of a template is a segmentation, by the recursion of the cut. -/
theorem segmentation_cut (opening template : List Char) :
    Segmentation opening template (cut opening template) := by
  induction template using cut_induction opening with
  | nil => exact .done
  | hole s rest piece hhole ih =>
      rw [cut_of_hole? hhole]
      obtain ⟨key, default, text, rfl, htext, rfl⟩ := placeholder_of_hole? hhole
      exact .placeholder htext ih
  | char c s hnone ih =>
      rw [cut_cons hnone]
      exact .literal (hole?_eq_none_iff.mp hnone) ih

/-- It is the only one, by induction on the segmentation. -/
theorem Segmentation.eq_cut {template : List Char} {pieces : List Piece}
    (h : Segmentation opening template pieces) : pieces = cut opening template := by
  induction h with
  | done => rfl
  | literal hnone _ ih => rw [cut_cons (hole?_eq_none_iff.mpr hnone), ih]
  | placeholder htext _ ih => rw [cut_of_hole? (hole?_of_placeholder htext _), ih]

/-- **A template is cut in exactly one way.** -/
theorem segmentation_iff {template : List Char} {pieces : List Piece} :
    Segmentation opening template pieces ↔ pieces = cut opening template := by
  constructor
  · exact Segmentation.eq_cut
  · rintro rfl
    exact segmentation_cut opening template

/-! ## What is written for a part -/

/-- A key has no value: it is not in the table, or its value is null. -/
def Valueless (values : Fields Json) (key : List Char) : Prop :=
  ∀ v, values.get? (String.ofList key) = some v → v.isNull = true

/-- What is written for a part of a template.  A literal character stands for itself; a placeholder
for its value, else for its default, else for nothing or itself. -/
inductive Shows (opening : List Char) (values : Fields Json) : Missing → Piece → List Char → Prop
  | literal {missing : Missing} (c : Char) : Shows opening values missing (.char c) [c]
  | value {missing : Missing} {key : List Char} {default : Option (List Char)} {v : Json}
      (hvalue : values.get? (String.ofList key) = some v) (hnull : v.isNull = false) :
      Shows opening values missing (.hole key default) v.output.toList
  | default {missing : Missing} {key text : List Char} (hnone : Valueless values key) :
      Shows opening values missing (.hole key (some text)) text
  | vanished {kept : List String} {key : List Char} (hnone : Valueless values key)
      (hkept : String.ofList key ∉ kept) : Shows opening values (.vanishes kept) (.hole key none) []
  | kept {kept : List String} {key : List Char} (hnone : Valueless values key)
      (hkept : String.ofList key ∈ kept) :
      Shows opening values (.vanishes kept) (.hole key none) (opening ++ key ++ ['\x7d'])
  | stayed {key : List Char} (hnone : Valueless values key) :
      Shows opening values .stays (.hole key none) (opening ++ key ++ ['\x7d'])

/-- The text of a key in a table of values. -/
theorem get?_outputs {values : Fields Json} (hnames : values.names.Nodup) (key : String) :
    Fields.get? (Json.outputs values) key =
      (values.get? key).bind fun v => if v.isNull then none else some v.output := by
  induction values with
  | nil => rfl
  | cons entry values ih =>
      obtain ⟨name, v⟩ := entry
      obtain ⟨hname, hrest⟩ := List.nodup_cons.mp hnames
      have houtputs : Json.outputs ((name, v) :: values) =
          if v.isNull then Json.outputs values else (name, v.output) :: Json.outputs values := by
        cases hv : v.isNull <;> simp [Json.outputs, hv]
      rw [houtputs, Fields.get?]
      by_cases hkey : name = key
      · subst hkey
        have hnone := Fields.get?_of_notMem hname
        cases hv : v.isNull <;> simp [hv, Fields.get?, ih hrest, hnone]
      · cases hv : v.isNull <;> simp [Fields.get?, hkey, ih hrest]

theorem get?_outputs_of_valueless {values : Fields Json} (hnames : values.names.Nodup)
    {key : List Char} (h : Valueless values key) :
    Fields.get? (Json.outputs values) (String.ofList key) = none := by
  rw [get?_outputs hnames, Option.bind_eq_none_iff]
  intro v hv
  rw [if_pos (h v hv)]

theorem get?_outputs_of_value {values : Fields Json} (hnames : values.names.Nodup) {key : String}
    {v : Json} (hvalue : values.get? key = some v) (hnull : v.isNull = false) :
    Fields.get? (Json.outputs values) key = some v.output := by
  rw [get?_outputs hnames, hvalue, Option.bind_some, hnull]
  rfl

/-- Every piece is filled as it should be, by the cases of what may stand in a placeholder. -/
theorem shows_fill {values : Fields Json} (hnames : values.names.Nodup) (missing : Missing)
    (piece : Piece) :
    Shows opening values missing piece
      (Piece.fill opening (fun key => (Fields.get? (Json.outputs values) key).map String.toList)
        missing piece) := by
  cases piece with
  | char c => exact .literal c
  | hole key default =>
      -- One case for each way a placeholder can be shown.
      by_cases hnone : Valueless values key
      · simp only [Piece.fill, get?_outputs_of_valueless hnames hnone, Option.map_none]
        cases default with
        | some text => exact .default hnone
        | none =>
            cases missing with
            | stays => exact .stayed hnone
            | vanishes kept =>
                by_cases hkept : String.ofList key ∈ kept
                · simp only [List.contains_iff_mem.mpr hkept, if_true]
                  exact .kept hnone hkept
                · simpa [hkept] using Shows.vanished hnone hkept
      · obtain ⟨v, hvalue, hnull⟩ : ∃ v, values.get? (String.ofList key) = some v ∧
            v.isNull = false := by
          simpa [Valueless] using hnone
        simp only [Piece.fill, get?_outputs_of_value hnames hvalue hnull, Option.map_some]
        exact .value hvalue hnull

/-- **What a filled template is.**  A template is cut in exactly one way, whatever it is filled
from, and its parts are the template again.  The filled template is what is written for these parts,
one after the other. -/
theorem fill_segmentation (opening template : String) :
    ∃ pieces : List Piece,
      (∀ other, Segmentation opening.toList template.toList other ↔ other = pieces) ∧
      pieces.flatMap (Piece.source opening.toList) = template.toList ∧
      ∀ (values : Fields Json) (missing : Missing), values.names.Nodup →
        ∃ texts : List (List Char),
          List.Forall₂ (Shows opening.toList values missing) pieces texts ∧
          fill opening (Json.outputs values) missing template = String.ofList texts.flatten := by
  refine ⟨cut opening.toList template.toList, fun _ => segmentation_iff, source_cut _ _, ?_⟩
  intro values missing hnames
  let write : Piece → List Char :=
    Piece.fill opening.toList
      (fun key => (Fields.get? (Json.outputs values) key).map String.toList) missing
  refine ⟨(cut opening.toList template.toList).map write, ?_, rfl⟩
  rw [List.forall₂_map_right_iff, List.forall₂_same]
  exact fun piece _ => shows_fill hnames missing piece

/-- A placeholder that is never closed, one within the key of another and one that ends within the
default of another.  The value with a placeholder of its own is written as it is. -/
theorem fill_segmentation_nested :
    let opening := "$\x7bp."
    let template :=
      "$\x7bp.a:b $\x7bp.c$\x7bp.d\x7d, $\x7bp.e:-$\x7bp.f\x7d\x7d, $\x7bp.g\x7d$\x7bp.h\x7d"
    let values : Fields Json := [("c$\x7bp.d", .str "$\x7bp.h\x7d"), ("e", .null), ("d", .int 1)]
    values.names.Nodup ∧
      ∃ (pieces : List Piece) (texts : List (List Char)),
        Segmentation opening.toList template.toList pieces ∧
        List.Forall₂ (Shows opening.toList values (.vanishes ["h"])) pieces texts ∧
        String.ofList texts.flatten = "$\x7bp.a:b $\x7bp.h\x7d, $\x7bp.f\x7d, $\x7bp.h\x7d" := by
  intro opening template values
  have hnames : values.names.Nodup := by decide
  obtain ⟨pieces, hcut, -, hfill⟩ := fill_segmentation opening template
  obtain ⟨texts, hshows, htext⟩ := hfill values (.vanishes ["h"]) hnames
  refine ⟨hnames, pieces, texts, (hcut pieces).mpr rfl, hshows, ?_⟩
  rw [← htext]
  decide +kernel

end ReAct.Template
