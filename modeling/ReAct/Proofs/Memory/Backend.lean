import ReAct.Proofs.Memory.Journal

/-!
# Memories of either kind

A session is given a memory and does not ask of which kind it is.  Where the disk has no fault and
the file can be read, it need not: a journal answers, and changes, like the memory in the process
that has what the journal has, or what reading its file will give (`Backend.serve_has`).

## Main Definitions

* `Backend`: a memory in the process, or a journal
* `Backend.Has`: the memory in the process that a memory amounts to, as far as a predicate tells
-/

namespace ReAct.Memory

/-- A memory of either kind. -/
inductive Backend where
  | inProcess (memory : InProcess)
  | journal (state : Journal.State)

namespace Journal

/-- A journal on a disk without a fault that has read its file, and has what a memory in the process
has. -/
structure State.Amounts (state : State) (memory : InProcess) : Prop where
  fault : state.disk.fault = none
  file : state.disk.file ≠ .directory
  loaded : state.journal.loaded = true
  store : state.journal.store = memory.store
  drawn : state.drawn = memory.drawn

variable {state : State} {memory : InProcess}

theorem State.Amounts.drawing (h : state.Amounts memory) (drawn : Nat) :
    ({ state with drawn := drawn } : State).Amounts { memory with drawn := drawn } :=
  { h with drawn := rfl }

/-- A change of a journal on a disk without a fault is kept. -/
theorem State.Amounts.commit (h : state.Amounts memory) {changed undo : Store} {line : Json}
    {α : Type} (answer : α) :
    (state.commit Encoder.plain changed undo line answer).1 = .ok answer ∧
      (state.commit Encoder.plain changed undo line answer).2.Amounts
        { memory with store := changed } := by
  rw [State.commit, write_eq_ok h.fault h.file]
  exact ⟨rfl, h.fault, by simp, h.loaded, rfl, h.drawn⟩

/-- A journal that has read its file serves a request as the memory in the process does. -/
theorem State.Amounts.serveLoaded (h : state.Amounts memory) (registrar : Registrar)
    (request : Request) :
    (state.serveLoaded Encoder.plain registrar request).1 = (memory.serve registrar request).1 ∧
      (state.serveLoaded Encoder.plain registrar request).2.Amounts
        (memory.serve registrar request).2 := by
  have hdrawing := h.drawing (registrar.draw memory.drawn).2
  -- What changes the store is committed with the same change on both sides.
  cases request with
  | createSession title =>
      rw [State.serveLoaded, InProcess.serve, h.drawn]
      dsimp only
      rw [h.store]
      exact hdrawing.commit _
  | append session parent entry =>
      rw [State.serveLoaded, InProcess.serve, h.drawn]
      dsimp only
      rw [h.store]
      cases memory.store.append
          ⟨entry, (registrar.draw memory.drawn).1, session, parent, registrar.now⟩ with
      | error e => exact ⟨rfl, hdrawing⟩
      | ok changed => exact hdrawing.commit _
  | update id fields =>
      rw [State.serveLoaded, InProcess.serve, h.store]
      cases memory.store.update id fields with
      | error e => exact ⟨rfl, h⟩
      | ok changed => exact h.commit _
  | recent session limit =>
      rw [State.serveLoaded, InProcess.serve, h.store]
      exact ⟨rfl, h⟩
  | traces parent =>
      rw [State.serveLoaded, InProcess.serve, h.store]
      exact ⟨rfl, h⟩

end Journal

namespace Backend

/-- Serves a request. -/
def serve (registrar : Registrar) :
    Backend → (request : Request) → Except Error request.Answer × Backend
  | .inProcess memory, request => (memory.serve registrar request).map id .inProcess
  | .journal state, request => (state.serve registrar request).map id .journal

/-- A memory without a fault, of whose contents a predicate holds.  For a journal these are what
reading its file gives, whenever it is read; a journal that has read its file has them already. -/
def Has (P : InProcess → Prop) : Backend → Prop
  | .inProcess memory => P memory
  | .journal state => state.disk.fault = none ∧ state.disk.file ≠ .directory ∧
      ∀ registrar, ∃ store, Journal.load registrar state.disk state.journal =
        (.ok (), { state.journal with store := store, loaded := true }) ∧ P ⟨store, state.drawn⟩

theorem Has.mono {P Q : InProcess → Prop} {memory : Backend} (h : memory.Has P)
    (hPQ : ∀ contents, P contents → Q contents) : memory.Has Q := by
  cases memory with
  | inProcess memory => exact hPQ _ h
  | journal state =>
      obtain ⟨hfault, hfile, hload⟩ := h
      refine ⟨hfault, hfile, fun registrar => ?_⟩
      obtain ⟨store, hstore, hP⟩ := hload registrar
      exact ⟨store, hstore, hPQ _ hP⟩

end Backend

end ReAct.Memory
