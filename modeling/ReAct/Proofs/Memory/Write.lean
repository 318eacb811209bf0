import ReAct.Memory.Journal

/-!
# Writing a change

A journal changes its store and then writes a line.  What writing can come to is said once
(`Written`): the line is added, or the operating system refuses before anything is encoded, or the
line cannot be put into writing.  Of the two ways to fail, the journal takes its change back after
those that count as failures of memory (`State.commit_failed`).  An encoder that encodes every line
fails in no other way (`kind_of_commit`).

## Main Definitions

* `Written`: what comes of writing a line, and the disk after that
-/

namespace ReAct.Memory.Journal

variable {encode : Encoder} {disk next : Disk} {journal : Journal} {line : Json}

/-- What comes of writing a line, and the disk after that. -/
inductive Written (encode : Encoder) (disk : Disk) (journal : Journal) (line : Json) :
    Except Error Unit → Disk → Prop
  | added {text : String} (hfault : disk.fault = none) (hfile : disk.file ≠ .directory)
      (hencode : encode line = .ok text) :
      Written encode disk journal line (.ok ())
        { disk with file := .text (disk.file.content ++ (text ++ "\n")) }
  | refused (text : String) :
      Written encode disk journal line (.error (.unwritable journal.path text)) disk
  | unwritten {cause : Failure} (hencode : encode line = .error cause) :
      Written encode disk journal line (.error (encodingError journal.path cause))
        { disk with file := .text disk.file.content }

/-- There is no other way in which writing can come out. -/
theorem written_write (encode : Encoder) (disk : Disk) (journal : Journal) (line : Json) :
    Written encode disk journal line (write encode disk journal line).1
      (write encode disk journal line).2 := by
  unfold write
  split
  · exact .refused _
  · exact .refused _
  · rename_i hfault hfile
    split
    · rename_i hencode
      exact .added hfault hfile hencode
    · rename_i hencode
      exact .unwritten hencode

/-- Where the disk has no fault, a line is appended to what the file holds. -/
theorem write_eq_ok (hfault : disk.fault = none) (hfile : disk.file ≠ .directory) :
    write Encoder.plain disk journal line = (.ok (), { disk with
      file := .text (disk.file.content ++ (line.print Json.spaced ++ "\n")) }) := by
  obtain ⟨file, fault⟩ := disk
  cases hfault
  cases file with
  | missing => rfl
  | directory => exact absurd rfl hfile
  | text content => rfl

/-- What a line that was added leaves on the disk. -/
theorem disk_of_write (h : write Encoder.plain disk journal line = (.ok (), next)) :
    next = { disk with file := .text (disk.file.content ++ (line.print Json.spaced ++ "\n")) } := by
  have hwritten := written_write Encoder.plain disk journal line
  rw [h] at hwritten
  cases hwritten with
  | added _ _ hencode =>
      cases hencode
      rfl

/-- Where every line can be put into writing, nothing but the operating system refuses, and then it
leaves the disk alone. -/
theorem write_refused {e : Error} (h : write Encoder.plain disk journal line = (.error e, next)) :
    e.kind = .memory ∧ next = disk := by
  have hwritten := written_write Encoder.plain disk journal line
  rw [h] at hwritten
  cases hwritten with
  | refused text => exact ⟨rfl, rfl⟩
  | unwritten hencode => cases hencode

variable {state : State} {changed undo : Store} {α : Type} {answer : α} {e : Error}

/-- **A change that is not written is taken back if that is a failure of memory**, and stays
otherwise. -/
theorem State.commit_failed (h : (state.commit encode changed undo line answer).1 = .error e) :
    (state.commit encode changed undo line answer).2.journal =
      { state.journal with store := if e.kind = .memory then undo else changed } := by
  unfold State.commit at h ⊢
  split at h
  · cases h
  · cases h
    rfl

/-- Taken back, the change leaves the journal as it was, if `undo` undoes it. -/
theorem State.commit_undone (h : (state.commit encode changed undo line answer).1 = .error e)
    (hundo : undo = state.journal.store) (hkind : e.kind = .memory) :
    (state.commit encode changed undo line answer).2.journal = state.journal := by
  rw [State.commit_failed h, if_pos hkind, hundo]

/-- Where every line can be encoded, a refused change is a failure of memory and leaves the disk
alone. -/
theorem State.commit_refused
    (h : (state.commit Encoder.plain changed undo line answer).1 = .error e) :
    e.kind = .memory ∧
      (state.commit Encoder.plain changed undo line answer).2.disk = state.disk := by
  unfold State.commit at h ⊢
  split at h
  · cases h
  · rename_i hwrite
    cases h
    exact write_refused hwrite

@[simp]
theorem State.drawn_commit (encode : Encoder) (state : State) (changed undo : Store) (line : Json)
    (answer : α) : (state.commit encode changed undo line answer).2.drawn = state.drawn := by
  unfold State.commit
  split <;> rfl

@[simp]
theorem State.loaded_commit (encode : Encoder) (state : State) (changed undo : Store) (line : Json)
    (answer : α) :
    (state.commit encode changed undo line answer).2.journal.loaded = state.journal.loaded := by
  unfold State.commit
  split <;> rfl

end ReAct.Memory.Journal
