import ReAct.Proofs.Memory.Change
import ReAct.Proofs.Memory.Field
import ReAct.Proofs.Memory.Store

/-!
# Merged changes

Where several programs write to one file, each decides on what it has in the process, and a reader
enters the changes of all of them.  Nothing goes wrong that way.  Whether a change can be entered
depends on the names that are there and on the values that are given, so that a change that can be
entered into a store can be entered into every store that has more (`Change.enter_of_within`).  What
the reader has in the end is every session and every interaction once, and in each field the value
that was given last (`Store.Merges.enter`).

## Main Definitions

* `lastValue?`: the value that some changes give a field of an interaction
* `Store.Merges`: what a store has that some changes were entered into
* `Store.Within`: a store that has nothing but what another one has
* `Store.Free`: a name that is not in use
-/

namespace ReAct.Memory

namespace Change

/-- The session that a change creates, with its title. -/
def session? : Change → Option (Json × Json)
  | .session id title => some (.str id, title)
  | .interaction _ => none
  | .fields _ _ => none

/-- The name of the interaction that a change adds. -/
def added? : Change → Option String
  | .session _ _ => none
  | .interaction added => some added.id
  | .fields _ _ => none

/-- The value that a change gives a field of the interaction of a name. -/
def value? (id : String) (field : Field) : Change → Option field.Value
  | .session _ _ => none
  | .interaction added => if added.id = id then some (field.of added) else none
  | .fields revised values => if revised = id then field.given? values else none

end Change

/-- The value that a field of an interaction is given by the last change that gives it one. -/
def lastValue? (changes : List Change) (id : String) (field : Field) : Option field.Value :=
  changes.reverse.findSome? (Change.value? id field)

/-- The last change that gives a field a value counts. -/
theorem lastValue?_concat (changes : List Change) (change : Change) (id : String) (field : Field) :
    lastValue? (changes ++ [change]) id field =
      (change.value? id field).or (lastValue? changes id field) := by
  unfold lastValue?
  rw [List.reverse_concat, List.findSome?_cons]
  cases change.value? id field with
  | none => rfl
  | some value => rfl

namespace Store

/-- A store that has what some changes have brought: every session, with its title, and every
interaction, each of them once and in order, and in each field of an interaction the value that it
was given last. -/
structure Merges (store : Store) (changes : List Change) : Prop where
  sessions : store.sessions = changes.filterMap Change.session?
  distinct_sessions : (store.sessions.map Prod.fst).Nodup
  interactions : store.interactions.names = changes.filterMap Change.added?
  distinct_interactions : store.interactions.names.Nodup
  fields : ∀ id interaction, store.interactions.get? id = some interaction →
    ∀ field, lastValue? changes id field = some (field.of interaction)

/-- A store that has no name of a session or an interaction but those that another one has. -/
structure Within (view store : Store) : Prop where
  sessions : ∀ id, view.hasSession id = true → store.hasSession id = true
  interactions : ∀ id ∈ view.interactions.names, id ∈ store.interactions.names

/-- A name that neither a session nor an interaction has. -/
structure Free (store : Store) (name : String) : Prop where
  session : store.hasSession name = false
  interaction : name ∉ store.interactions.names

theorem merges_nil : Merges {} [] where
  sessions := rfl
  distinct_sessions := List.nodup_nil
  interactions := rfl
  distinct_interactions := List.nodup_nil
  fields id interaction h := by cases h

theorem empty_within (store : Store) : Within {} store where
  sessions id h := by cases h
  interactions id h := by cases h

variable {store : Store}

theorem Within.refl (store : Store) : store.Within store :=
  ⟨fun _ h => h, fun _ h => h⟩

/-- A view of a view is a view. -/
theorem Within.trans {view more : Store} (h : view.Within store) (hmore : store.Within more) :
    view.Within more where
  sessions id hid := hmore.sessions id (h.sessions id hid)
  interactions id hid := hmore.interactions id (h.interactions id hid)

/-- A name that is free in the whole is free in a part. -/
theorem Within.free {view : Store} (h : view.Within store) {name : String}
    (hfree : store.Free name) : view.Free name where
  session := by
    rw [Bool.eq_false_iff]
    intro hsession
    have hstore := h.sessions name hsession
    rw [hfree.session] at hstore
    cases hstore
  interaction hmem := hfree.interaction (h.interactions name hmem)

end Store

namespace Change

variable {change : Change} {store changed merged view : Store}

/-! ## The names that there are after a change -/

/-- Behind a change there are the sessions from before it, and the one that it brings. -/
theorem enter_hasSession (h : change.enter store = .ok changed) (id : String) :
    changed.hasSession id = true ↔
      (∃ title, change = .session id title) ∨ store.hasSession id = true := by
  cases change with
  | session name title =>
      cases h
      rw [Store.hasSession_addSession]
      refine or_congr_left ⟨?_, ?_⟩
      · rintro rfl
        exact ⟨title, rfl⟩
      · rintro ⟨_, hsame⟩
        cases hsame
        rfl
  | interaction added =>
      obtain ⟨-, -, rfl⟩ := Store.append_eq_ok.mp h
      simp [Store.hasSession]
  | fields name values =>
      obtain ⟨-, -, -, -, rfl⟩ := Store.update_eq_ok.mp h
      simp [Store.hasSession]

/-- It is the same with interactions. -/
theorem enter_names (h : change.enter store = .ok changed) (id : String) :
    id ∈ changed.interactions.names ↔
      change.added? = some id ∨ id ∈ store.interactions.names := by
  cases change with
  | session name title =>
      cases h
      simp [added?, Store.addSession]
  | interaction added =>
      obtain ⟨-, -, rfl⟩ := Store.append_eq_ok.mp h
      rw [Fields.mem_names_put, added?, Option.some_inj, eq_comm]
  | fields name values =>
      obtain ⟨interaction, revised, hfound, -, rfl⟩ := Store.update_eq_ok.mp h
      rw [Fields.names_put_of_mem revised (Fields.mem_names_of_get? hfound)]
      simp [added?]

/-- A change takes no name away. -/
theorem within_enter (h : change.enter store = .ok changed) : store.Within changed where
  sessions id hid := (enter_hasSession h id).mpr (.inr hid)
  interactions id hid := (enter_names h id).mpr (.inr hid)

/-- A change uses no name but the one that it introduces. -/
theorem enter_free (h : change.enter store = .ok changed) {name : String}
    (hname : change.name? ≠ some name) (hfree : store.Free name) : changed.Free name where
  session := by
    rw [Bool.eq_false_iff, Ne, enter_hasSession h, not_or, Bool.not_eq_true]
    refine ⟨?_, hfree.session⟩
    rintro ⟨title, rfl⟩
    exact hname rfl
  interaction := by
    rw [enter_names h, not_or]
    refine ⟨fun hadded => ?_, hfree.interaction⟩
    cases change with
    | session id title => cases hadded
    | interaction added => exact hname hadded
    | fields id values => cases hadded

/-! ## Changes that were decided on less -/

/-- **What can be entered into a store can be entered into every store that has more.** -/
theorem enter_of_within (hwithin : view.Within store) (h : change.enter view = .ok changed) :
    ∃ merged, change.enter store = .ok merged := by
  cases change with
  | session id title => exact ⟨_, rfl⟩
  | interaction added =>
      obtain ⟨hsession, hparent, -⟩ := Store.append_eq_ok.mp h
      refine ⟨_, Store.append_eq_ok.mpr ⟨hwithin.sessions _ hsession, ?_, rfl⟩⟩
      intro parent hsome
      exact hwithin.interactions parent (hparent parent hsome)
  | fields id values =>
      obtain ⟨known, revised, hknown, hrevised, -⟩ := Store.update_eq_ok.mp h
      have hview := Fields.mem_names_of_get? hknown
      -- The interaction may have got other values since, but the given ones are as good for them.
      obtain ⟨current, hcurrent⟩ := Fields.exists_get?_of_mem_names (hwithin.interactions id hview)
      obtain ⟨result, hresult⟩ := Interaction.exists_revise hrevised current
      exact ⟨_, Store.update_eq_ok.mpr ⟨current, result, hcurrent, hresult, rfl⟩⟩

/-- A change that is entered in a part and in the whole leaves a part of the whole. -/
theorem enter_within (hwithin : view.Within store) (h : change.enter view = .ok changed)
    (hmerged : change.enter store = .ok merged) : changed.Within merged where
  sessions id hid := by
    rw [enter_hasSession hmerged]
    exact ((enter_hasSession h id).mp hid).imp_right (hwithin.sessions id)
  interactions id hid := by
    rw [enter_names hmerged]
    exact ((enter_names h id).mp hid).imp_right (hwithin.interactions id)

end Change

/-! ## What a store has then -/

namespace Store.Merges

variable {store merged : Store} {changes : List Change} {change : Change}

/-- A session that is new goes behind the others. -/
theorem addSession (h : store.Merges changes) {id : String} (title : Json)
    (hnew : store.hasSession id = false) :
    (store.addSession (.str id) title).Merges (changes ++ [.session id title]) := by
  have hsessions : (store.addSession (.str id) title).sessions =
      store.sessions ++ [(.str id, title)] := putSession_of_new title hnew
  -- The sessions in order, none of them twice; the interactions are untouched.
  refine ⟨?_, ?_, ?_, h.distinct_interactions, ?_⟩
  · rw [hsessions, List.filterMap_append, h.sessions]
    rfl
  · rw [hsessions, List.map_append, List.nodup_append]
    refine ⟨h.distinct_sessions, List.nodup_singleton _, ?_⟩
    rintro known hknown _ hid rfl
    obtain rfl := List.mem_singleton.mp hid
    obtain ⟨entry, hentry, hname⟩ := List.mem_map.mp hknown
    have hsame : sameSession entry.1 (.str id) = true := by
      rw [hname, sameSession_str]
      rfl
    have hhas : store.hasSession id = true := List.any_eq_true.mpr ⟨entry, hentry, hsame⟩
    rw [hnew] at hhas
    cases hhas
  · rw [List.filterMap_append, ← h.interactions]
    exact (List.append_nil _).symm
  · intro name interaction hget field
    rw [lastValue?_concat]
    exact h.fields name interaction hget field

/-- An interaction that is new goes behind the others, with the fields that it is given. -/
theorem append (h : store.Merges changes) {added : Interaction}
    (hnew : added.id ∉ store.interactions.names) :
    Merges { store with interactions := store.interactions.put added.id added }
      (changes ++ [.interaction added]) := by
  refine ⟨?_, h.distinct_sessions, ?_, Fields.nodup_names_put _ _ h.distinct_interactions, ?_⟩
  · rw [List.filterMap_append, ← h.sessions]
    exact (List.append_nil _).symm
  · rw [Fields.put_of_notMem added hnew, Fields.names, List.map_append, List.filterMap_append,
      ← h.interactions]
    rfl
  · intro name interaction hget field
    rw [lastValue?_concat, Change.value?]
    rcases Fields.get?_put_eq_some.mp hget with ⟨rfl, rfl⟩ | ⟨hname, hold⟩
    · rw [if_pos rfl]
      rfl
    · rw [if_neg (Ne.symm hname)]
      exact h.fields name interaction hold field

/-- An interaction that is revised keeps its place, and keeps the fields that it is not given. -/
theorem update (h : store.Merges changes) {id : String} {values : Fields Json}
    {known revised : Interaction} (hknown : store.interactions.get? id = some known)
    (hrevised : known.revise values = .valid revised) :
    Merges { store with interactions := store.interactions.put id revised }
      (changes ++ [.fields id values]) := by
  have hnames := Fields.names_put_of_mem revised (Fields.mem_names_of_get? hknown)
  -- No name is new.  The last value of a field is the one just given, or as before.
  refine ⟨?_, h.distinct_sessions, ?_, ?_, ?_⟩
  · rw [List.filterMap_append, ← h.sessions]
    exact (List.append_nil _).symm
  · rw [hnames, List.filterMap_append, ← h.interactions]
    exact (List.append_nil _).symm
  · rw [hnames]
    exact h.distinct_interactions
  · intro name interaction hget field
    rw [lastValue?_concat, Change.value?]
    rcases Fields.get?_put_eq_some.mp hget with ⟨rfl, rfl⟩ | ⟨hname, hold⟩
    · rw [if_pos rfl, h.fields name known hknown field]
      exact Interaction.given?_of_revise hrevised field
    · rw [if_neg (Ne.symm hname)]
      exact h.fields name interaction hold field

/-- **One more change is merged**, if the name that it introduces is a new one. -/
theorem enter (h : store.Merges changes) (hmerged : change.enter store = .ok merged)
    (hfree : ∀ name, change.name? = some name → store.Free name) :
    merged.Merges (changes ++ [change]) := by
  cases change with
  | session id title =>
      cases hmerged
      exact h.addSession title (hfree id rfl).session
  | interaction added =>
      obtain ⟨-, -, rfl⟩ := Store.append_eq_ok.mp hmerged
      exact h.append (hfree added.id rfl).interaction
  | fields id values =>
      obtain ⟨known, revised, hknown, hrevised, rfl⟩ := Store.update_eq_ok.mp hmerged
      exact h.update hknown hrevised

end Store.Merges

end ReAct.Memory
