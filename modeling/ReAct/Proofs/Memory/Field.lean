import ReAct.Memory.Interaction

/-!
# Fields of an interaction

An interaction is as good as the family of its fields, and a revision goes field by field: a field
that it names gets the value that was given, once that is checked, and every other field is kept
(`Interaction.revise_eq_valid_iff`).  Whether a revision succeeds therefore depends on the values
alone, not on the interaction that is revised (`Interaction.exists_revise`).

## Main Definitions

* `Field`, `Field.Value`, `Field.of`: the fields, what they hold, and their values
* `Field.check`: how a value for a field is checked
* `Field.given?`: the value that a revision gives a field
-/

namespace ReAct.Memory

open Record

/-- The fields of an interaction. -/
inductive Field where
  | question
  | response
  | origin
  | traceNumber
  | finalAnswer
  | additionalInfo
  | id
  | session
  | parent
  | created

namespace Field

/-- What a field holds. -/
def Value : Field → Type
  | .question => Option String
  | .response => Option String
  | .origin => String
  | .traceNumber => Option Int
  | .finalAnswer => Bool
  | .additionalInfo => Fields Json
  | .id => String
  | .session => String
  | .parent => Option String
  | .created => Moment

/-- The name of a field in an object. -/
def name : Field → String
  | .question => "question"
  | .response => "response"
  | .origin => "origin"
  | .traceNumber => "trace_number"
  | .finalAnswer => "final_answer"
  | .additionalInfo => "additional_info"
  | .id => "interaction_id"
  | .session => "session_id"
  | .parent => "parent_id"
  | .created => "created_at"

/-- How a value for a field is checked. -/
def check : (field : Field) → Check field.Value
  | .question => optional text
  | .response => optional text
  | .origin => text
  | .traceNumber => optional integer
  | .finalAnswer => flag
  | .additionalInfo => table any
  | .id => text
  | .session => text
  | .parent => optional text
  | .created => Moment.check

/-- The value of a field. -/
def of : (field : Field) → Interaction → field.Value
  | .question, interaction => interaction.entry.question
  | .response, interaction => interaction.entry.response
  | .origin, interaction => interaction.entry.origin
  | .traceNumber, interaction => interaction.entry.traceNumber
  | .finalAnswer, interaction => interaction.entry.finalAnswer
  | .additionalInfo, interaction => interaction.entry.additionalInfo
  | .id, interaction => interaction.id
  | .session, interaction => interaction.session
  | .parent, interaction => interaction.parent
  | .created, interaction => interaction.created

/-- The value that some values give a field, if they give it one. -/
def given? (field : Field) (values : Fields Json) : Option field.Value :=
  match values.get? field.name with
  | none => none
  | some v =>
    match field.check v with
    | .valid value => some value
    | .faulty _ => none

end Field

/-- The interaction with given values of its fields. -/
def Interaction.ofFields (value : (field : Field) → field.Value) : Interaction where
  entry := {
    question := value .question
    response := value .response
    origin := value .origin
    traceNumber := value .traceNumber
    finalAnswer := value .finalAnswer
    additionalInfo := value .additionalInfo }
  id := value .id
  session := value .session
  parent := value .parent
  created := value .created

theorem Field.of_ofFields (value : (field : Field) → field.Value) (field : Field) :
    field.of (Interaction.ofFields value) = value field := by
  cases field <;> rfl

/-! ## Checked values -/

section Checked

variable {α β : Type}

theorem map_eq_valid_iff {f : α → β} {a : Checked α} {b : β} :
    f <$> a = .valid b ↔ ∃ x, a = .valid x ∧ f x = b := by
  cases a with
  | valid x =>
      constructor
      · intro h
        cases h
        exact ⟨x, rfl, rfl⟩
      · rintro ⟨y, hy, rfl⟩
        cases hy
        rfl
  | faulty issues =>
      constructor
      · intro h
        cases h
      · rintro ⟨y, hy, -⟩
        cases hy

theorem seq_eq_valid_iff {f : Checked (α → β)} {a : Checked α} {b : β} :
    f <*> a = .valid b ↔ ∃ g x, f = .valid g ∧ a = .valid x ∧ g x = b := by
  cases f with
  | valid g =>
      have hmap : Checked.valid g <*> a = g <$> a := by cases a <;> rfl
      rw [hmap, map_eq_valid_iff]
      constructor
      · rintro ⟨x, hx, hb⟩
        exact ⟨g, x, rfl, hx, hb⟩
      · rintro ⟨g', x, hg, hx, hb⟩
        cases hg
        exact ⟨x, hx, hb⟩
  | faulty issues =>
      constructor
      · intro h
        cases a <;> cases h
      · rintro ⟨g, x, hg, -, -⟩
        cases hg

theorem under_eq_valid_iff {name : String} {a : Checked α} {x : α} :
    a.under name = .valid x ↔ a = .valid x := by
  cases a with
  | valid y => exact Iff.rfl
  | faulty issues =>
      constructor
      · intro h
        cases h
      · intro h
        cases h

/-- A field with a default has the value that is given, or else its default. -/
theorem defaulted_eq_valid_iff {members : Fields Json} {name : String} {default x : α}
    {check : Check α} :
    defaulted members name default check = .valid x ↔
      (∃ v, members.get? name = some v ∧ check v = .valid x) ∨
        (members.get? name = none ∧ default = x) := by
  unfold defaulted
  cases members.get? name with
  | none => simp
  | some v => simp [under_eq_valid_iff]

end Checked

/-! ## Revisions -/

namespace Interaction

variable {interaction revised : Interaction} {values : Fields Json}

/-- **A revision goes field by field.** -/
theorem revise_eq_valid_iff :
    interaction.revise values = .valid revised ↔
      ∀ field : Field,
        (∃ v, values.get? field.name = some v ∧ field.check v = .valid (field.of revised)) ∨
          (values.get? field.name = none ∧ field.of interaction = field.of revised) := by
  simp only [← defaulted_eq_valid_iff]
  constructor
  · intro h
    simp only [revise, Entry.checkOver, map_eq_valid_iff, seq_eq_valid_iff] at h
    obtain ⟨_, _, ⟨_, _, ⟨_, _, ⟨_, _, ⟨_, ⟨_, _, ⟨_, _, ⟨_, _, ⟨_, _, ⟨_, _, ⟨_, h1, rfl⟩, h2,
      rfl⟩, h3, rfl⟩, h4, rfl⟩, h5, rfl⟩, h6, rfl⟩, rfl⟩, h7, rfl⟩, h8, rfl⟩, h9, rfl⟩, h10, rfl⟩ :=
      h
    -- One fact for each field, in the order they are checked in.
    intro field
    cases field <;> assumption
  · intro h
    simp only [revise, Entry.checkOver, map_eq_valid_iff, seq_eq_valid_iff]
    exact ⟨_, _, ⟨_, _, ⟨_, _, ⟨_, _, ⟨_, ⟨_, _, ⟨_, _, ⟨_, _, ⟨_, _, ⟨_, _, ⟨_, h .question, rfl⟩,
      h .response, rfl⟩, h .origin, rfl⟩, h .traceNumber, rfl⟩, h .finalAnswer, rfl⟩,
      h .additionalInfo, rfl⟩, rfl⟩, h .id, rfl⟩, h .session, rfl⟩, h .parent, rfl⟩,
      h .created, rfl⟩

/-- A field of a revised interaction has the value that was given, or else the one that it had. -/
theorem given?_of_revise (h : interaction.revise values = .valid revised) (field : Field) :
    (field.given? values).or (some (field.of interaction)) = some (field.of revised) := by
  unfold Field.given?
  obtain ⟨v, hv, hchecked⟩ | ⟨habsent, hkept⟩ := revise_eq_valid_iff.mp h field
  · rw [hv]
    dsimp only
    rw [hchecked]
    rfl
  · rw [habsent, hkept]
    rfl

/-- **Values that revise one interaction revise every other one.** -/
theorem exists_revise (h : interaction.revise values = .valid revised) (other : Interaction) :
    ∃ result, other.revise values = .valid result := by
  refine ⟨ofFields fun field =>
    if values.has field.name then field.of revised else field.of other, ?_⟩
  rw [revise_eq_valid_iff] at h ⊢
  intro field
  rw [Field.of_ofFields]
  obtain ⟨v, hv, hchecked⟩ | ⟨habsent, -⟩ := h field
  · exact .inl ⟨v, hv, by rw [if_pos (by simp [Fields.has, hv]), hchecked]⟩
  · exact .inr ⟨habsent, by rw [if_neg (by simp [Fields.has, habsent])]⟩

end Interaction

end ReAct.Memory
