import ReAct.Proofs.Memory.Outcome
import ReAct.Proofs.Memory.Replay

/-!
# Lines that a journal does not expect

A journal may hold lines that it did not write.  Most of what can be wrong with a line is reported
as a failure of memory: it is no JSON, it lacks a member, its interaction is faulty, or it refers to
what is not there.  A few shapes are not looked at in time, and reading them fails in another way: a
line that is no object, a name that is a list or an object, and fields that are no object
(`Misshapen`).  Whatever the file holds and whatever is asked first, the file is read or memory
refuses, unless such a line is reached (`State.serve_reads_iff`).

## Main Definitions

* `Misshapen`: the lines of an unexpected shape, given the store that they meet
* `State.Stumbles`: a journal that is still to read a file in which such a line is reached
-/

namespace ReAct.Memory

open Text Record

/-- Lists and objects, which cannot be names. -/
def IsContainer : Json → Prop
  | .arr _ => True
  | .obj _ => True
  | _ => False

/-- The lines of an unexpected shape.  The fields of an update are looked at only if the interaction
is in the store that the line meets. -/
inductive Misshapen (store : Store) : Json → Prop
  | bare {v : Json} (h : ∀ members, v ≠ .obj members) : Misshapen store v
  | session {members : Fields Json} {id : Json} (hop : members.get? "op" = some (.str "session"))
      (hid : members.get? "session_id" = some id) (h : IsContainer id) :
      Misshapen store (.obj members)
  | update {members : Fields Json} {id fields : Json}
      (hop : members.get? "op" = some (.str "update"))
      (hid : members.get? "interaction_id" = some id)
      (hfields : members.get? "fields" = some fields) (h : IsContainer id) :
      Misshapen store (.obj members)
  | fields {members : Fields Json} {id : String} {fields : Json}
      (hop : members.get? "op" = some (.str "update"))
      (hid : members.get? "interaction_id" = some (.str id))
      (hfields : members.get? "fields" = some fields) (hknown : id ∈ store.interactions.names)
      (h : ∀ values, fields ≠ .obj values) : Misshapen store (.obj members)

/-- The faults of a line that are reported as failures of memory. -/
def LineFault.IsMemory : LineFault → Prop
  | .broken => True
  | .misshapen _ => False
  | .refused e => e.kind = .memory

/-- The fault of a line is a failure of memory exactly if it is one of those that the reader turns
into one. -/
theorem LineFault.kind_error_iff (fault : LineFault) (path : String) (number : Nat) :
    (fault.error path number).kind = .memory ↔ fault.IsMemory := by
  cases fault with
  | broken => exact ⟨fun _ => trivial, fun _ => rfl⟩
  | misshapen text =>
      constructor
      · intro h
        cases h
      · exact False.elim
  | refused e => exact Iff.rfl

/-! ## Failures of memory -/

/-- What the store refuses as memory, it refuses as memory within a line. -/
theorem isMemory_of_refusing {α : Type} {outcome : Except Error α} {fault : LineFault}
    (h : refusing outcome = .error fault) (hkind : ∀ e, outcome = .error e → e.kind = .memory) :
    fault.IsMemory := by
  cases outcome with
  | ok a => cases h
  | error e =>
      cases h
      exact hkind e rfl

/-! ## One line -/

variable {now : Moment} {store : Store} {members : Fields Json}

/-- A missing member is a fault that the reader knows. -/
theorem need_eq_error {name : String} {fault : LineFault} (h : need members name = .error fault) :
    fault.IsMemory := by
  unfold need at h
  split at h
  · cases h
  · cases h
    trivial

theorem need_eq_ok {name : String} {v : Json} (h : need members name = .ok v) :
    members.get? name = some v := by
  unfold need at h
  split at h
  · rename_i hget
    cases h
    exact hget
  · cases h

/-- Only containers are no names. -/
theorem asName_eq_error {v : Json} {fault : LineFault} (h : asName v = .error fault) :
    IsContainer v := by
  unfold asName at h
  split at h
  · trivial
  · trivial
  · cases h

theorem asName_eq_ok {v w : Json} (h : asName v = .ok w) : w = v := by
  unfold asName at h
  split at h
  · cases h
  · cases h
  · exact (Except.ok.inj h).symm

theorem eq_of_isText {v : Json} {s : String} (h : v.isText s = true) : v = .str s := by
  cases v with
  | str t => exact congrArg Json.str (beq_iff_eq.mp h)
  | _ => cases h

/-- A sequence fails in its first part, or in what comes after its value. -/
theorem bind_eq_error {α β : Type} {first : Except LineFault α} {next : α → Except LineFault β}
    {fault : LineFault} (h : first >>= next = .error fault) :
    first = .error fault ∨ ∃ a, first = .ok a ∧ next a = .error fault := by
  cases first with
  | error e =>
      cases h
      exact .inl rfl
  | ok a => exact .inr ⟨a, rfl, h⟩

/-- An update that cannot be folded. -/
theorem replayUpdate_eq_error {id fields : Json} {fault : LineFault}
    (h : replayUpdate store id fields = .error fault) :
    fault.IsMemory ∨ IsContainer id ∨
      ∃ name, id = .str name ∧ name ∈ store.interactions.names ∧
        ∀ values, fields ≠ .obj values := by
  unfold replayUpdate at h
  obtain hname | ⟨name, hname, hnamed⟩ := bind_eq_error h
  · exact .inr (.inl (asName_eq_error hname))
  obtain rfl := asName_eq_ok hname
  split at hnamed
  · rename_i name
    split at hnamed
    · rename_i hhas
      split at hnamed
      · exact .inl (isMemory_of_refusing hnamed fun e => Store.kind_of_update)
      · rename_i hfields
        exact .inr (.inr ⟨name, rfl, Fields.has_iff_mem_names.mp hhas, hfields⟩)
    · cases hnamed
      exact .inl rfl
  · cases hnamed
    exact .inl rfl

/-- **A line that cannot be folded has an unexpected shape, or its fault is one of memory.** -/
theorem replayLine_eq_error {v : Json} {fault : LineFault}
    (h : replayLine now store v = .error fault) : fault.IsMemory ∨ Misshapen store v := by
  unfold replayLine at h
  -- The checks come in the order of the code: the op, then what it needs, then its fields.
  split at h
  · rename_i members
    obtain hop | ⟨op, hop, hline⟩ := bind_eq_error h
    · exact .inl (need_eq_error hop)
    split at hline
    · rename_i htext
      obtain rfl := eq_of_isText htext
      obtain hid | ⟨id, hid, hsession⟩ := bind_eq_error hline
      · exact .inl (need_eq_error hid)
      obtain hname | ⟨name, -, hadded⟩ := bind_eq_error hsession
      · exact .inr (.session (need_eq_ok hop) (need_eq_ok hid) (asName_eq_error hname))
      · cases hadded
    split at hline
    · obtain hinteraction | ⟨interaction, -, hadded⟩ := bind_eq_error hline
      · exact .inl (need_eq_error hinteraction)
      split at hadded
      · cases hadded
        exact .inl trivial
      · exact .inl (isMemory_of_refusing hadded fun e => Store.kind_of_append)
    split at hline
    · rename_i htext
      obtain rfl := eq_of_isText htext
      obtain hid | ⟨id, hid, hupdate⟩ := bind_eq_error hline
      · exact .inl (need_eq_error hid)
      obtain hfields | ⟨fields, hfields, hrevised⟩ := bind_eq_error hupdate
      · exact .inl (need_eq_error hfields)
      obtain hmemory | hcontainer | ⟨name, rfl, hknown, hshape⟩ := replayUpdate_eq_error hrevised
      · exact .inl hmemory
      · exact .inr (.update (need_eq_ok hop) (need_eq_ok hid) (need_eq_ok hfields) hcontainer)
      · exact .inr (.fields (need_eq_ok hop) (need_eq_ok hid) (need_eq_ok hfields) hknown hshape)
    · cases hline
  · rename_i hbare
    exact .inr (.bare hbare)

/-- A container as a name is a fault that the reader does not know. -/
theorem asName_of_isContainer {v : Json} (h : IsContainer v) :
    ∃ text, asName v = .error (.misshapen text) := by
  cases v with
  | arr items => exact ⟨_, rfl⟩
  | obj members => exact ⟨_, rfl⟩
  | _ => exact h.elim

/-- **A line of an unexpected shape is met with a fault that is none of memory.** -/
theorem Misshapen.replayLine {v : Json} (h : Misshapen store v) (now : Moment) :
    ∃ text, replayLine now store v = .error (.misshapen text) := by
  -- Each shape is refused at its own check, all earlier ones being passed.
  cases h with
  | bare h =>
      cases v with
      | obj members => exact absurd rfl (h members)
      | _ => exact ⟨_, rfl⟩
  | session hop hid h =>
      obtain ⟨text, htext⟩ := asName_of_isContainer h
      refine ⟨text, ?_⟩
      simp [Memory.replayLine, need, hop, hid, htext, Json.isText, bind, Except.bind]
  | update hop hid hfields h =>
      obtain ⟨text, htext⟩ := asName_of_isContainer h
      refine ⟨text, ?_⟩
      simp [Memory.replayLine, replayUpdate, need, hop, hid, hfields, htext, Json.isText, bind,
        Except.bind]
  | @fields members id fields hop hid hfields hknown h =>
      have hhas := Fields.has_iff_mem_names.mpr hknown
      refine ⟨"'" ++ typeWord fields ++ "' object is not a mapping", ?_⟩
      cases fields with
      | obj values => exact absurd rfl (h values)
      | _ =>
          simp [Memory.replayLine, replayUpdate, need, hop, hid, hfields, hhas, asName,
            Json.isText, bind, Except.bind]

/-! ## The first request -/

namespace Journal

variable {state : State} {registrar : Registrar} {request : Request}

/-- A journal that has still to read its file, and reaches a line of an unexpected shape when it
does. -/
def State.Stumbles (state : State) (registrar : Registrar) : Prop :=
  state.journal.loaded = false ∧ ∃ content before line after reached v,
    state.disk.file = .text content ∧ lines content.toList = before ++ line :: after ∧
      replay registrar.now state.journal.path 1 state.journal.store before = (reached, none) ∧
        allBlank line = false ∧ Json.ofChars? .refused line = some v ∧ Misshapen reached v

/-- Where a line cannot be folded, the fault is known to the reader, or the value is of another
shape than an entry. -/
theorem foldLine_eq_error {reached : Store} {line : List Char} {fault : LineFault}
    (h : foldLine now reached line = .error fault) :
    fault.IsMemory ∨
      allBlank line = false ∧ ∃ v, Json.ofChars? .refused line = some v ∧ Misshapen reached v := by
  unfold foldLine at h
  split at h
  · cases h
  · rename_i hblank
    split at h
    · cases h
      exact .inl trivial
    · rename_i v hread
      refine (replayLine_eq_error h).imp_right fun hshape => ?_
      exact ⟨by simpa using hblank, v, hread, hshape⟩

/-- Reading the file fails in another way than a failure of memory only where it stumbles. -/
theorem stumbles_of_load {e : Error} {journal : Journal}
    (h : load registrar state.disk state.journal = (.error e, journal))
    (hkind : e.kind ≠ .memory) : state.Stumbles registrar := by
  unfold load at h
  split at h
  · cases h
  rename_i hunread
  split at h
  · cases h
  · cases h
    exact absurd rfl hkind
  · rename_i content hcontent
    split at h
    · cases h
    · rename_i reached fault hreplay
      cases h
      -- The replay stopped at some line, and no error of the memory comes from there.
      obtain ⟨before, line, after, fault, hlines, hbefore, hline, rfl⟩ :=
        replay_stops_iff.mp hreplay
      have hother : ¬ fault.IsMemory := fun h => hkind ((fault.kind_error_iff _ _).mpr h)
      obtain ⟨hblank, v, hread, hshape⟩ := (foldLine_eq_error hline).resolve_left hother
      exact ⟨by simpa using hunread, content, before, line, after, reached, v, hcontent, hlines,
        hbefore, hblank, hread, hshape⟩

/-- Where reading the file stumbles it fails, and the failure is none of memory. -/
theorem State.Stumbles.load (h : state.Stumbles registrar) :
    ∃ e, (load registrar state.disk state.journal).1 = .error e ∧ e.kind ≠ .memory := by
  obtain ⟨hunread, content, before, line, after, reached, v, hcontent, hlines, hbefore, hblank,
    hread, hshape⟩ := h
  obtain ⟨text, htext⟩ := hshape.replayLine registrar.now
  have hline : foldLine registrar.now reached line = .error (.misshapen text) := by
    rw [foldLine, if_neg (by simp [hblank]), hread]
    exact htext
  have hreplay := replay_stops_iff.mpr ⟨before, line, after, _, hlines, hbefore, hline, rfl⟩
  rw [Journal.load, if_neg (by simp [hunread]), hcontent]
  dsimp only
  rw [hreplay]
  refine ⟨_, rfl, ?_⟩
  intro hkind
  cases hkind

/-- A journal has read its file if that has not failed. -/
theorem loaded_load_iff :
    (load registrar state.disk state.journal).2.loaded = true ↔
      (load registrar state.disk state.journal).1 = .ok () := by
  unfold load
  split
  · rename_i hloaded
    exact iff_of_true hloaded rfl
  · rename_i hunread
    split
    · exact iff_of_true rfl rfl
    · exact iff_of_false hunread (fun h => by cases h)
    · split
      · exact iff_of_true rfl rfl
      · exact iff_of_false hunread (fun h => by cases h)

/-- **What the first request may come to.**  Whatever the file holds and whatever is asked, the file
is read or memory refuses, and nothing but a refusal of memory comes out, exactly if reading does
not reach a line of an unexpected shape. -/
theorem State.serve_reads_iff (state : State) (registrar : Registrar) (request : Request) :
    (((state.serve registrar request).2.journal.loaded = true ∨
        ∃ e, (state.serve registrar request).1 = .error e ∧ e.kind = .memory) ↔
      ¬ state.Stumbles registrar) ∧
      ((∀ e, (state.serve registrar request).1 = .error e → e.kind = .memory) ↔
        ¬ state.Stumbles registrar) := by
  have hloaded := @loaded_load_iff state registrar
  unfold State.serve State.serveWith
  generalize hload : load registrar state.disk state.journal = loading
  obtain ⟨outcome, journal⟩ := loading
  cases outcome with
  | ok _ =>
      have hread : journal.loaded = true := by simpa [hload] using hloaded
      have hsteady : ¬ state.Stumbles registrar := by
        intro hstumbles
        obtain ⟨e, he, -⟩ := hstumbles.load
        rw [hload] at he
        cases he
      have hserved :=
        loaded_serveLoaded Encoder.plain { state with journal := journal } registrar request
      constructor
      · exact iff_of_true (.inl (hserved.trans hread)) hsteady
      · exact iff_of_true (fun e he => (serveLoaded_refused_plain he).1) hsteady
  | error e =>
      -- One failure came out of the reading, and it is of memory or the reading stumbled.
      have hiff : e.kind = .memory ↔ ¬ state.Stumbles registrar := by
        constructor
        · intro hkind hstumbles
          obtain ⟨fault, hfault, hother⟩ := hstumbles.load
          rw [hload] at hfault
          cases hfault
          exact hother hkind
        · intro hsteady
          by_contra hkind
          exact hsteady (stumbles_of_load hload hkind)
      constructor
      · rw [← hiff]
        constructor
        · rintro (hread | ⟨fault, hfault, hkind⟩)
          · rw [hload] at hloaded
            cases hloaded.mp hread
          · cases hfault
            exact hkind
        · exact fun hkind => .inr ⟨e, rfl, hkind⟩
      · rw [← hiff]
        constructor
        · exact fun h => h e rfl
        · intro hkind fault hfault
          cases hfault
          exact hkind

/-- Not every file is read or reported as a failure of memory: one with a number on a line of its
own is neither. -/
theorem State.not_forall_serve_reads :
    ¬ ∀ (content : String) (registrar : Registrar) (request : Request),
      ((State.unread content).serve registrar request).2.journal.loaded = true ∨
        ∃ e, ((State.unread content).serve registrar request).1 = .error e ∧ e.kind = .memory := by
  intro hreads
  have hserved : ((State.unread "5\n").serve tally (.createSession .null)) =
      (.error (.misshapen "'int' object is not subscriptable"), State.unread "5\n") := by
    rfl
  have hrefused := hreads "5\n" tally (.createSession .null)
  rw [hserved] at hrefused
  obtain hread | ⟨e, he, hkind⟩ := hrefused
  · cases hread
  · cases he
    cases hkind

end Journal

end ReAct.Memory
