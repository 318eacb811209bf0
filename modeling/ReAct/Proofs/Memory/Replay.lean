import ReAct.Proofs.Memory.Line

/-!
# Where a replay stops

A replay folds one line after the other and stops at the first one that it cannot fold (`foldLine`).
So if it stops, there is a line that it has reached in a store of its own, and whatever follows that
line makes no difference (`replay_stops_iff`); and if it gets through some lines, it gets through
those in front of any of them (`replay_append_iff`).

## Main Definitions

* `foldLine`: what a replay makes of one line
-/

namespace ReAct.Memory

open Text

/-- Folds the text of one line into a store; a blank one changes nothing. -/
def foldLine (now : Moment) (store : Store) (line : List Char) : Except LineFault Store :=
  if allBlank line then .ok store
  else
    match Json.ofChars? .refused line with
    | none => .error .broken
    | some v => replayLine now store v

variable {now : Moment} {path : String} {number : Nat} {store next reached : Store}
  {line : List Char}

theorem replay_cons_of_ok (h : foldLine now store line = .ok next) (rest : List (List Char)) :
    replay now path number store (line :: rest) = replay now path (number + 1) next rest := by
  unfold foldLine at h
  rw [replay]
  split at h
  · rename_i hblank
    cases h
    exact if_pos hblank
  · rename_i hblank
    rw [if_neg hblank]
    cases hread : Json.ofChars? .refused line with
    | none =>
        rw [hread] at h
        cases h
    | some v =>
        rw [hread] at h
        dsimp only at h ⊢
        rw [h]

theorem replay_cons_of_error {fault : LineFault} (h : foldLine now store line = .error fault)
    (rest : List (List Char)) :
    replay now path number store (line :: rest) = (store, some (fault.error path number)) := by
  unfold foldLine at h
  rw [replay]
  split at h
  · cases h
  · rename_i hblank
    rw [if_neg hblank]
    cases hread : Json.ofChars? .refused line with
    | none =>
        rw [hread] at h
        cases h
        rfl
    | some v =>
        rw [hread] at h
        dsimp only at h ⊢
        rw [h]

/-- **A replay stops at a line exactly if it reaches the line and cannot fold it.** -/
theorem replay_stops_iff {e : Error} {ls : List (List Char)} :
    replay now path number store ls = (reached, some e) ↔
      ∃ before line after fault, ls = before ++ line :: after ∧
        replay now path number store before = (reached, none) ∧
          foldLine now reached line = .error fault ∧
            e = fault.error path (number + before.length) := by
  constructor
  · intro h
    -- The first line that is at fault stops the replay; those before it are replayed.
    induction ls generalizing number store with
    | nil => cases h
    | cons l ls ih =>
        cases hline : foldLine now store l with
        | error fault =>
            rw [replay_cons_of_error hline] at h
            cases h
            exact ⟨[], l, ls, fault, rfl, rfl, hline, rfl⟩
        | ok next =>
            rw [replay_cons_of_ok hline] at h
            obtain ⟨before, line, after, fault, rfl, hbefore, hfault, rfl⟩ := ih h
            refine ⟨l :: before, line, after, fault, rfl, ?_, hfault, ?_⟩
            · rw [replay_cons_of_ok hline, hbefore]
            · rw [List.length_cons, Nat.add_assoc, Nat.add_comm 1]
  · rintro ⟨before, line, after, fault, rfl, hbefore, hfault, rfl⟩
    rw [replay_append hbefore, replay_cons_of_error hfault]

/-- **A replay gets through some lines and then through more exactly if it gets through all.** -/
theorem replay_append_iff {ls more : List (List Char)} :
    replay now path number store (ls ++ more) = (reached, none) ↔
      ∃ middle, replay now path number store ls = (middle, none) ∧
        replay now path (number + ls.length) middle more = (reached, none) := by
  constructor
  · intro h
    generalize hls : replay now path number store ls = outcome
    obtain ⟨middle, stopped⟩ := outcome
    cases stopped with
    | none => exact ⟨middle, rfl, (replay_append hls more).symm.trans h⟩
    -- Where the first lines stop a replay, they stop it whatever follows them.
    | some e =>
        obtain ⟨before, line, after, fault, rfl, hbefore, hfault, rfl⟩ := replay_stops_iff.mp hls
        have hstops := replay_stops_iff.mpr
          ⟨before, line, after ++ more, fault, rfl, hbefore, hfault, rfl⟩
        rw [List.append_assoc, List.cons_append, hstops] at h
        cases h
  · rintro ⟨middle, hls, hmore⟩
    rw [replay_append hls, hmore]

end ReAct.Memory
