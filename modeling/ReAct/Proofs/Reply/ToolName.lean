import ReAct.Proofs.Reply.Decision
import ReAct.Proofs.Text.Search

/-!
# The tool that an action names

Models write the name of a tool loosely, so an action is matched with the names that there are in
three stages: the name as it is, a name that is the same in lower case, and a name that occurs in
the action.  No stage hides what a later one would find, so an action names no tool only if no name
occurs in it at all (`toolName?_eq_none`).  In the last stage the longest name is taken and of
several longest ones the least; this is a linear order, so it does not matter in which order the
names come (`toolName?_spec`).

## Main Definitions

* `SameName`, `OccursIn`: a name is the action, or is a part of it, both in lower case
* `Precedes`: the order of the names that occur in an action
* `Designates`: the name that an action designates, by the three stages
-/

namespace ReAct.Reply

open Text

/-! ## Matching -/

/-- A name is the action but for the case of letters and the blanks around the action. -/
def SameName (name action : String) : Prop :=
  lower name.toList = lower (trim action.toList)

/-- A name occurs in the action but for the case of letters. -/
def OccursIn (name action : String) : Prop :=
  lower name.toList <:+: lower (trim action.toList)

/-- What is the action occurs in it. -/
theorem SameName.occursIn {name action : String} (h : SameName name action) :
    OccursIn name action := by
  rw [OccursIn, h]

instance (name action : String) : Decidable (SameName name action) :=
  inferInstanceAs (Decidable (_ = _))

instance (name action : String) : Decidable (OccursIn name action) :=
  inferInstanceAs (Decidable (_ <:+: _))

/-! ## The order of names -/

/-- A longer name comes first, and of two names of one length the lesser one. -/
def Precedes (first second : String) : Prop :=
  second.length < first.length ∨ second.length = first.length ∧ first ≤ second

theorem Precedes.refl (name : String) : Precedes name name :=
  .inr ⟨rfl, String.le_refl name⟩

/-- The order of the names is transitive. -/
theorem Precedes.trans {first second third : String} (h : Precedes first second)
    (h' : Precedes second third) : Precedes first third := by
  rcases h with h | ⟨h, hle⟩ <;> rcases h' with h' | ⟨h', hle'⟩
  · exact .inl (by omega)
  · exact .inl (by omega)
  · exact .inl (by omega)
  · exact .inr ⟨by omega, String.le_trans hle hle'⟩

/-- No two names precede each other, so the order is linear. -/
theorem Precedes.antisymm {first second : String} (h : Precedes first second)
    (h' : Precedes second first) : first = second := by
  rcases h with h | ⟨h, hle⟩ <;> rcases h' with h' | ⟨h', hle'⟩
  · omega
  · omega
  · omega
  · exact String.le_antisymm hle hle'

/-- Two names are compared by this order. -/
theorem preferredName_eq_true {first second : String} (h : preferredName first second = true) :
    Precedes first second := by
  rw [preferredName, Bool.or_eq_true, Bool.and_eq_true, beq_iff_eq, decide_eq_true_eq,
    decide_eq_true_eq] at h
  rcases h with hlonger | ⟨hlength, hless⟩
  · exact .inl hlonger
  · exact .inr ⟨hlength.symm, String.not_lt.mp (String.lt_asymm hless)⟩

/-- The name that is not preferred comes second. -/
theorem preferredName_eq_false {first second : String} (h : ¬ preferredName first second = true) :
    Precedes second first := by
  rw [preferredName, Bool.or_eq_true, Bool.and_eq_true, beq_iff_eq, decide_eq_true_eq,
    decide_eq_true_eq, not_or, not_and] at h
  obtain ⟨hlonger, hless⟩ := h
  rcases Nat.lt_or_ge first.length second.length with hlength | hlength
  · exact .inl hlength
  · have hsame : first.length = second.length := by omega
    exact .inr ⟨hsame, String.not_lt.mp (hless hsame)⟩

/-- **The preferred name precedes all others.** -/
theorem precedes_of_preferred? {names : List String} {name : String}
    (h : preferred? names = some name) : ∀ other ∈ names, Precedes name other := by
  induction names generalizing name with
  | nil => cases h
  | cons first rest ih =>
      rw [preferred?] at h
      -- What is preferred of the rest is held against the first.
      split at h
      · rename_i hnone
        cases h
        cases rest with
        | nil => exact List.forall_mem_singleton.mpr (Precedes.refl _)
        | cons second rest =>
            rw [preferred?] at hnone
            split at hnone <;> cases hnone
      · rename_i other hother
        have hrest := ih hother
        cases h
        rw [List.forall_mem_cons]
        split
        · rename_i hpreferred
          exact ⟨preferredName_eq_true hpreferred, hrest⟩
        · rename_i hpreferred
          have hfirst := preferredName_eq_false hpreferred
          exact ⟨Precedes.refl first, fun third hthird => hfirst.trans (hrest third hthird)⟩

/-- Only of no names none is preferred. -/
theorem preferred?_eq_none {names : List String} : preferred? names = none ↔ names = [] := by
  cases names with
  | nil => exact iff_of_true rfl rfl
  | cons first rest =>
      refine iff_of_false ?_ (List.cons_ne_nil first rest)
      rw [preferred?]
      split <;> exact Option.some_ne_none _

/-! ## Designation -/

/-- The name that an action designates: itself, else a name that it is but for the case of letters,
else the first one in the order of names that occurs in it. -/
inductive Designates (names : List String) (action : String) : String → Prop
  | itself (h : action ∈ names) : Designates names action action
  | same {name : String} (hother : action ∉ names) (h : name ∈ names)
      (hsame : SameName name action) : Designates names action name
  | part {name : String} (hother : action ∉ names)
      (hnone : ∀ other ∈ names, ¬ SameName other action) (h : name ∈ names)
      (hoccurs : OccursIn name action)
      (hfirst : ∀ other ∈ names, OccursIn other action → Precedes name other) :
      Designates names action name

/-- A text contains another one exactly if it has it as a part. -/
theorem contains_iff_infix {needle s : List Char} : contains needle s = true ↔ needle <:+: s := by
  rw [contains, Option.isSome_iff_exists]
  constructor
  · rintro ⟨rest, hrest⟩
    obtain ⟨before, hbefore⟩ := append_of_afterFirst? hrest
    exact ⟨before, rest, hbefore.symm⟩
  · rintro ⟨before, after, rfl⟩
    obtain ⟨rest, hrest, -⟩ := afterFirst?_append needle before after
    exact ⟨rest, hrest⟩

/-- The names that are compared in the last stage are those that occur in the action. -/
theorem mem_filter_occursIn {names : List String} {name action : String} :
    name ∈ names.filter (fun name => contains (lower name.toList) (lower (trim action.toList))) ↔
      name ∈ names ∧ OccursIn name action := by
  rw [List.mem_filter, contains_iff_infix]
  rfl

/-- What is found is designated, by the stage in which it is found. -/
theorem designates_of_toolName? {names : List String} {action name : String}
    (h : toolName? action names = some name) : Designates names action name := by
  unfold toolName? at h
  dsimp only at h
  -- The stages are tried in order, and each one rules out those before it.
  split at h
  · rename_i hcontains
    cases h
    exact .itself (List.contains_iff_mem.mp hcontains)
  rename_i hcontains
  have hother : action ∉ names := fun hmem => hcontains (List.contains_iff_mem.mpr hmem)
  split at h
  · rename_i found hfound
    cases h
    have hsame := List.find?_some hfound
    exact .same hother (List.mem_of_find?_eq_some hfound) (eq_of_beq hsame)
  · rename_i hnone
    have hpart := mem_filter_occursIn.mp (mem_of_preferred? h)
    refine .part hother ?_ hpart.1 hpart.2 fun other hmem hoccurs => ?_
    · intro other hmem hsame
      exact List.find?_eq_none.mp hnone other hmem (beq_iff_eq.mpr hsame)
    · exact precedes_of_preferred? h other (mem_filter_occursIn.mpr ⟨hmem, hoccurs⟩)

/-- An action names no tool only if no name occurs in it. -/
theorem toolName?_eq_none {names : List String} {action : String} :
    toolName? action names = none ↔ action ∉ names ∧ ∀ name ∈ names, ¬ OccursIn name action := by
  constructor
  · intro h
    unfold toolName? at h
    dsimp only at h
    split at h
    · cases h
    rename_i hcontains
    refine ⟨fun hmem => hcontains (List.contains_iff_mem.mpr hmem), fun name hmem hoccurs => ?_⟩
    split at h
    · cases h
    · have hpart := mem_filter_occursIn.mpr ⟨hmem, hoccurs⟩
      rw [preferred?_eq_none.mp h] at hpart
      cases hpart
  · rintro ⟨hother, hnone⟩
    rw [Option.eq_none_iff_forall_ne_some]
    intro name hname
    cases designates_of_toolName? hname with
    | itself h => exact hother h
    | same _ h hsame => exact hnone name h hsame.occursIn
    | part _ _ h hoccurs => exact hnone name h hoccurs

/-- What is designated depends on which names there are, and not on their order. -/
theorem Designates.congr {names others : List String} {action name : String}
    (hmem : ∀ name, name ∈ others ↔ name ∈ names) (h : Designates others action name) :
    Designates names action name := by
  cases h with
  | itself h => exact .itself ((hmem _).mp h)
  | same hother h hsame => exact .same (fun h => hother ((hmem _).mpr h)) ((hmem _).mp h) hsame
  | part hother hnone h hoccurs hfirst =>
      exact .part (fun h => hother ((hmem _).mpr h))
        (fun other h => hnone other ((hmem _).mpr h)) ((hmem _).mp h) hoccurs
        (fun other h => hfirst other ((hmem _).mpr h))

/-- At most one of the names is the action but for the case of letters, unless the action is itself
a name. -/
def Unambiguous (names : List String) (action : String) : Prop :=
  action ∈ names ∨
    ∀ first ∈ names, ∀ second ∈ names, SameName first action → SameName second action →
      first = second

/-- **At most one name is designated.** -/
theorem Designates.unique {names : List String} {action first second : String}
    (hunique : Unambiguous names action) (h : Designates names action first)
    (h' : Designates names action second) : first = second := by
  -- No two stages apply to one action, and each leaves one name at most.
  cases h with
  | itself hmem =>
      cases h' with
      | itself => rfl
      | same hother => exact absurd hmem hother
      | part hother => exact absurd hmem hother
  | same hother hfirst hsame =>
      cases h' with
      | itself hmem => exact absurd hmem hother
      | same _ hsecond hsame' =>
          exact hunique.resolve_left hother _ hfirst _ hsecond hsame hsame'
      | part _ hnone => exact absurd hsame (hnone _ hfirst)
  | part hother hnone hmem hoccurs hfirst =>
      cases h' with
      | itself hmem => exact absurd hmem hother
      | same _ hsecond hsame => exact absurd hsame (hnone _ hsecond)
      | part _ _ hmem' hoccurs' hfirst' =>
          exact (hfirst _ hmem' hoccurs').antisymm (hfirst' _ hmem hoccurs)

/-- The order in which the names come does not matter. -/
theorem toolName?_congr {names others : List String} {action : String}
    (hunique : Unambiguous names action) (hmem : ∀ name, name ∈ others ↔ name ∈ names) :
    toolName? action others = toolName? action names := by
  have hnone : toolName? action others = none ↔ toolName? action names = none := by
    simp only [toolName?_eq_none, hmem]
  cases hothers : toolName? action others with
  | none => exact (hnone.mp hothers).symm
  | some first =>
      cases hnames : toolName? action names with
      | none =>
          rw [hnone.mpr hnames] at hothers
          cases hothers
      | some second =>
          have hsame := Designates.unique hunique
            ((designates_of_toolName? hothers).congr hmem) (designates_of_toolName? hnames)
          rw [hsame]

/-- **The tool that an action names.**  There is none iff the action is no name and no name occurs
in it, in lower case.  Otherwise it is the name that the action designates: the action itself, else
a name that is the same in lower case, else the longest of the names that occur in it and the least
of the longest ones.  The order in which the names come matters only where several of them are the
action in lower case. -/
theorem toolName?_spec (action : String) (names : List String) :
    (toolName? action names = none ↔
        action ∉ names ∧ ∀ name ∈ names, ¬ OccursIn name action) ∧
      (∀ name, toolName? action names = some name → Designates names action name) ∧
      ∀ others, Unambiguous names action → (∀ name, name ∈ others ↔ name ∈ names) →
        toolName? action others = toolName? action names :=
  ⟨toolName?_eq_none, fun _ hname => designates_of_toolName? hname,
    fun _ hunique hmem => toolName?_congr hunique hmem⟩

/-- Two names of one length that differ in a letter's case, and two shorter ones.  As they are
written, only `use` occurs in the action. -/
theorem toolName?_spec_parts :
    let action := " I will use WEBSEARCH\n"
    let names := ["web", "use", "search", "Search"]
    Designates names action "Search" ∧ toolName? action names.reverse = some "Search" := by
  intro action names
  have hnames : toolName? action names = some "Search" := by decide +kernel
  have hnone : ∀ name ∈ names, ¬ SameName name action := by decide +kernel
  obtain ⟨-, hdesignates, hcongr⟩ := toolName?_spec action names
  have hunique : Unambiguous names action :=
    .inr fun first hfirst _ _ hsame => absurd hsame (hnone first hfirst)
  have hreverse := hcongr names.reverse hunique fun _ => List.mem_reverse
  exact ⟨hdesignates _ hnames, hreverse.trans hnames⟩

end ReAct.Reply
