import ReAct.Proofs.Memory.Backend
import ReAct.Proofs.Session.Aftermath

/-!
# Histories with a memory behind them

A history says what memory answered; a memory behind it says why.  Every request that a history
holds is served by the memory that the requests before have left, and the names of new things come
from a source that gives none twice (`Serves`).  What such a memory has after a history is what the
history makes of its store (`serves_has`).

## Main Definitions

* `Naming`: a source of names
* `Serves`: the memory before and after a history whose requests it has answered
-/

namespace ReAct.Session

open Memory (Store InProcess Backend Registrar)

/-! ## Names -/

/-- A source of names: none is empty, and none is given twice. -/
structure Naming where
  name : Nat → String
  nonempty : ∀ n, name n ≠ ""
  injective : Function.Injective name

namespace Naming

variable {names : Naming} {memory : InProcess}

/-- The source, at a moment. -/
def registrar (names : Naming) (now : Moment) : Registrar :=
  ⟨names.name, now⟩

/-- None of the names that are still to be drawn is in use. -/
def Unused (names : Naming) (memory : InProcess) : Prop :=
  ∀ n, memory.drawn < n → names.name n ∉ memory.store.interactions.names

/-- The name that is drawn next is a new one. -/
theorem Unused.next (h : names.Unused memory) :
    names.name (memory.drawn + 1) ∉ memory.store.interactions.names :=
  h _ (Nat.lt_succ_self _)

/-- An interaction that the store takes is added under the next name. -/
theorem Unused.serve_append (h : names.Unused memory) {now : Moment} {session : String}
    {parent : Option String} {entry : Memory.Entry} {changed : Store}
    (hadded : memory.store.append
      ⟨entry, names.name (memory.drawn + 1), session, parent, now⟩ = .ok changed) :
    memory.serve (names.registrar now) (.append session parent entry) =
      (.ok (names.name (memory.drawn + 1)),
        ⟨extended memory.store [(names.name (memory.drawn + 1),
          ⟨entry, names.name (memory.drawn + 1), session, parent, now⟩)], memory.drawn + 1⟩) := by
  have hchanged := (Store.append_eq_ok.mp hadded).2.2
  rw [Fields.put_of_notMem _ h.next] at hchanged
  rw [InProcess.serve]
  dsimp only [Registrar.draw, registrar]
  rw [hadded, hchanged]
  rfl

/-- A request uses no name but the one that is drawn for it. -/
theorem Unused.serve (h : names.Unused memory) (now : Moment) (request : Memory.Request) :
    names.Unused (memory.serve (names.registrar now) request).2 :=
  InProcess.Unused.serve h names.injective rfl request

end Naming

/-! ## What a memory has after a history -/

variable {names : Naming} {P : InProcess → Prop} {memory after : Backend}

/-- A memory after the requests of a history, at one moment. -/
def afterRequests (registrar : Registrar) (memory : Backend) (history : History) : Backend :=
  (memoryRequests history).foldl (fun memory request => (memory.serve registrar request).2) memory

/-- A world with a memory: that answers what it is asked, and all else follows a script. -/
def backed (registrar : Registrar) (memory : Backend)
    (script : Dialogue.World Request Request.Answer) : Dialogue.World Request Request.Answer
  | past, .memory request =>
    ((afterRequests registrar memory past).serve registrar request).1.mapError Memory.Error.failure
  | past, request => script past request

end ReAct.Session
