import ReAct.Proofs.Memory.Journal

/-!
# Changes

What lasts of a request that is granted is a change: a session, an interaction, or new values of an
interaction's fields.  A change enters a store, and its line makes a replay enter it, too
(`Change.records`).

## Main Definitions

* `Change`: what a request that is granted changes
* `Change.enter`, `Change.line`: the change in a store, and in a file
* `Request.changes`: the requests that are to change what memory has
* `Request.change?`: the change that a request comes to
-/

namespace ReAct.Memory

/-- What a request that is granted changes. -/
inductive Change where
  | session (id : String) (title : Json)
  | interaction (added : Interaction)
  | fields (id : String) (values : Fields Json)

namespace Change

/-- Enters a change into a store. -/
def enter (store : Store) : Change → Except Error Store
  | .session id title => .ok (store.addSession (.str id) title)
  | .interaction added => store.append added
  | .fields id values => store.update id values

/-- The line of a change. -/
def line : Change → Json
  | .session id title => sessionLine id title
  | .interaction added => appendLine added
  | .fields id values => updateLine id values

/-- The line as it is written. -/
def chars (change : Change) : List Char :=
  Json.chars Json.spaced change.line

/-- Tables without a name that occurs twice, at a time that a clock can show. -/
def Proper : Change → Prop
  | .session _ title => title.Distinct
  | .interaction added =>
    added.created.IsUniversal ∧ (Json.obj added.entry.additionalInfo).Distinct
  | .fields _ values => (Json.obj values).Distinct

/-- The name that a change introduces. -/
def name? : Change → Option String
  | .session id _ => some id
  | .interaction added => some added.id
  | .fields _ _ => none

variable {change : Change} {store changed : Store}

/-- The line of a change makes a replay follow it. -/
theorem records (h : change.Proper) (henter : change.enter store = .ok changed) :
    Records change.line store changed := by
  cases change with
  | session id title =>
      cases henter
      exact sessionLine_records store id h
  | interaction added => exact appendLine_records h.1 h.2 henter
  | fields id values => exact updateLine_records h henter

/-- The line of a change is an object. -/
theorem chars_eq_openBrace (change : Change) : ∃ rest, change.chars = '\x7b' :: rest := by
  cases change with
  | session id title => exact ⟨_, rfl⟩
  | interaction added => exact ⟨_, rfl⟩
  | fields id values => exact ⟨_, rfl⟩

end Change

/-- Whether a request is to change what memory has. -/
def Request.changes : Request → Bool
  | .createSession _ => true
  | .append _ _ _ => true
  | .update _ _ => true
  | .recent _ _ => false
  | .traces _ => false

/-- The change that a request comes to, given its answer. -/
def Request.change? (now : Moment) : (request : Request) → request.Answer → Option Change
  | .createSession title, id => some (.session id title)
  | .append session parent entry, id => some (.interaction ⟨entry, id, session, parent, now⟩)
  | .update id values, _ => some (.fields id values)
  | .recent _ _, _ => none
  | .traces _, _ => none

/-- A request for a change, once it is granted, is a change. -/
theorem Request.exists_change? {request : Request} (h : request.changes = true) (now : Moment)
    (answer : request.Answer) : ∃ change, request.change? now answer = some change := by
  cases request with
  | createSession title => exact ⟨_, rfl⟩
  | append session parent entry => exact ⟨_, rfl⟩
  | update id values => exact ⟨_, rfl⟩
  | recent session limit => cases h
  | traces parent => cases h

/-- A proper request makes a proper change. -/
theorem Request.Proper.change? {request : Request} (h : request.Proper) {now : Moment}
    (hnow : now.IsUniversal) {answer : request.Answer} {change : Change}
    (hchange : request.change? now answer = some change) : change.Proper := by
  cases request with
  | createSession title =>
      cases hchange
      exact h
  | append session parent entry =>
      cases hchange
      exact ⟨hnow, h⟩
  | update id values =>
      cases hchange
      exact h
  | recent session limit => cases hchange
  | traces parent => cases hchange

end ReAct.Memory
