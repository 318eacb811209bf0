import ReAct.Proofs.Dialogue

/-!
# Dialogues side by side

Two dialogues may ask different questions and still look the same to everybody but the one who is
asked.  Here some questions are *hidden*.  A hidden question may be asked on one side alone, as long
as no answer to it, or none that is admitted, makes a difference; all other questions have to be
asked on both sides and in the same order (`Parallel`).

Worlds that follow one script answer what is not hidden by what was not hidden before.  In two such
worlds parallel dialogues have the same visible histories and related results (`Parallel.play`).

## Main Definitions

* `visible`: a history without its hidden exchanges
* `Dialogue.Silent`: a dialogue whose questions are all hidden, and do not matter
* `Dialogue.Parallel`: two dialogues that differ in hidden questions only
* `Dialogue.SameScript`: two worlds that differ in the answers to hidden questions only
-/

namespace ReAct

variable {Question : Type} {Answer : Question → Type} {α β γ δ : Type}

/-- A history without its hidden exchanges. -/
def visible (hidden : Question → Bool) (history : List (Exchange Question Answer)) :
    List (Exchange Question Answer) :=
  history.filter fun exchange => !hidden exchange.question

section Visible

variable {hidden : Question → Bool} {exchange : Exchange Question Answer}

@[simp] theorem visible_nil : visible hidden ([] : List (Exchange Question Answer)) = [] := rfl

@[simp] theorem visible_append (first second : List (Exchange Question Answer)) :
    visible hidden (first ++ second) = visible hidden first ++ visible hidden second :=
  List.filter_append ..

theorem visible_cons_of_hidden (h : hidden exchange.question = true)
    (rest : List (Exchange Question Answer)) :
    visible hidden (exchange :: rest) = visible hidden rest :=
  List.filter_cons_of_neg (by simp [h])

theorem visible_cons_of_shown (h : hidden exchange.question = false)
    (rest : List (Exchange Question Answer)) :
    visible hidden (exchange :: rest) = exchange :: visible hidden rest :=
  List.filter_cons_of_pos (by simp [h])

end Visible

namespace Dialogue

/-- Two worlds that follow one script: where the visible pasts are the same, what is not hidden is
answered in the same way. -/
def SameScript (hidden : Question → Bool) (world other : World Question Answer) : Prop :=
  ∀ past pastThere q, hidden q = false → visible hidden past = visible hidden pastThere →
    world past q = other pastThere q

/-- A dialogue that asks nothing but hidden questions and, whatever is answered within what is
admitted, ends with the given result. -/
def Silent (hidden : Question → Bool) (admits : Exchange Question Answer → Prop) :
    Dialogue Question Answer α → α → Prop
  | .done b, a => b = a
  | .ask q next, a => hidden q = true ∧
      ∀ answer, admits ⟨q, answer⟩ → Silent hidden admits (next answer) a

/-- Two dialogues side by side that ask the same questions in the same order, apart from hidden
ones, and end with related results if all answers to those are admitted. -/
inductive Parallel (hidden : Question → Bool) (admits : Exchange Question Answer → Prop)
    (Related : α → β → Prop) : Dialogue Question Answer α → Dialogue Question Answer β → Prop
  | done {a : α} {b : β} (h : Related a b) : Parallel hidden admits Related (.done a) (.done b)
  | both {q : Question} {next : Answer q → Dialogue Question Answer α}
      {nextThere : Answer q → Dialogue Question Answer β} (hq : hidden q = false)
      (h : ∀ answer, Parallel hidden admits Related (next answer) (nextThere answer)) :
      Parallel hidden admits Related (.ask q next) (.ask q nextThere)
  | left {q : Question} {next : Answer q → Dialogue Question Answer α}
      {e : Dialogue Question Answer β} (hq : hidden q = true)
      (h : ∀ answer, admits ⟨q, answer⟩ → Parallel hidden admits Related (next answer) e) :
      Parallel hidden admits Related (.ask q next) e
  | right {q : Question} {d : Dialogue Question Answer α}
      {next : Answer q → Dialogue Question Answer β} (hq : hidden q = true)
      (h : ∀ answer, admits ⟨q, answer⟩ → Parallel hidden admits Related d (next answer)) :
      Parallel hidden admits Related d (.ask q next)

variable {hidden : Question → Bool} {admits : Exchange Question Answer → Prop}
  {Related : α → β → Prop} {Later : γ → δ → Prop}

/-! ## Silent dialogues -/

/-- Silent parts one after the other are silent. -/
theorem Silent.bind {d : Dialogue Question Answer α} {f : α → Dialogue Question Answer β} {a : α}
    {b : β} (hd : d.Silent hidden admits a) (hf : (f a).Silent hidden admits b) :
    (d >>= f).Silent hidden admits b := by
  induction d with
  | done r =>
      cases hd
      exact hf
  | ask q next ih => exact ⟨hd.1, fun answer hadmits => ih answer (hd.2 answer hadmits)⟩

/-- The question of a silent dialogue is hidden, and what comes after it does not matter. -/
theorem silent_question {q : Question} {f : Answer q → Dialogue Question Answer α} {a : α}
    (hq : hidden q = true)
    (hf : ∀ answer, admits ⟨q, answer⟩ → (f answer).Silent hidden admits a) :
    (question q >>= f).Silent hidden admits a :=
  ⟨hq, hf⟩

/-- Silent dialogues are parallel to each other, whatever they ask. -/
theorem Parallel.of_silent {d : Dialogue Question Answer α} {e : Dialogue Question Answer β} {a : α}
    {b : β} (hd : d.Silent hidden admits a) (he : e.Silent hidden admits b) (h : Related a b) :
    Parallel hidden admits Related d e := by
  induction d with
  | done r =>
      cases hd
      induction e with
      | done r =>
          cases he
          exact .done h
      | ask q next ih => exact .right he.1 fun answer hadmits => ih answer (he.2 answer hadmits)
  | ask q next ih => exact .left hd.1 fun answer hadmits => ih answer (hd.2 answer hadmits)

/-! ## Parallel dialogues -/

/-- Parallel parts one after the other are parallel, if their results are related. -/
theorem Parallel.bind {d : Dialogue Question Answer α} {e : Dialogue Question Answer β}
    {f : α → Dialogue Question Answer γ} {g : β → Dialogue Question Answer δ}
    (h : Parallel hidden admits Related d e)
    (hfg : ∀ a b, Related a b → Parallel hidden admits Later (f a) (g b)) :
    Parallel hidden admits Later (d >>= f) (e >>= g) := by
  induction h with
  | done h => exact hfg _ _ h
  | both hq _ ih => exact .both hq ih
  | left hq _ ih => exact .left hq ih
  | right hq _ ih => exact .right hq ih

/-- A question that is asked on both sides. -/
theorem parallel_question {q : Question} {f : Answer q → Dialogue Question Answer α}
    {g : Answer q → Dialogue Question Answer β} (hq : hidden q = false)
    (h : ∀ answer, Parallel hidden admits Related (f answer) (g answer)) :
    Parallel hidden admits Related (question q >>= f) (question q >>= g) :=
  .both hq h

/-! ## Dialogues that hide nothing -/

/-- A dialogue that asks no hidden question is parallel to itself. -/
theorem Asks.parallel {d : Dialogue Question Answer α} (h : d.Asks fun q => hidden q = false) :
    Parallel hidden admits (· = ·) d d := by
  induction d with
  | done a => exact .done rfl
  | ask q next ih => exact .both h.1 fun answer => ih answer (h.2 answer)

/-- All of what such a dialogue does is visible. -/
theorem Asks.visible_eq {d : Dialogue Question Answer α} (h : d.Asks fun q => hidden q = false)
    {history : List (Exchange Question Answer)} {a : α} (hyields : d.Yields history a) :
    visible hidden history = history := by
  rw [visible, List.filter_eq_self]
  intro exchange hmem
  rw [h.of_yields hyields exchange hmem]
  rfl

/-! ## Two worlds -/

/-- Two pasts that look alike still do so after an exchange that both have. -/
theorem visible_concat_congr {past pastThere : List (Exchange Question Answer)}
    (h : visible hidden past = visible hidden pastThere) (exchange : Exchange Question Answer) :
    visible hidden (past ++ [exchange]) = visible hidden (pastThere ++ [exchange]) := by
  rw [visible_append, visible_append, h]

/-- A hidden exchange leaves a past as it looks. -/
theorem visible_concat_of_hidden {q : Question} (hq : hidden q = true)
    (past : List (Exchange Question Answer)) (answer : Answer q) :
    visible hidden (past ++ [⟨q, answer⟩]) = visible hidden past := by
  rw [visible_append, visible_cons_of_hidden hq, visible_nil, List.append_nil]

/-- **Parallel dialogues look alike.**  Let two worlds follow one script, and let all answers be
admitted.  Then what is not hidden of the two histories is the same, and the results are related. -/
theorem Parallel.playFrom {world other : World Question Answer}
    (hworlds : SameScript hidden world other) {d : Dialogue Question Answer α}
    {e : Dialogue Question Answer β} (h : Parallel hidden admits Related d e) :
    ∀ past pastThere, visible hidden past = visible hidden pastThere →
      (∀ exchange ∈ (playFrom world past d).1, admits exchange) →
      (∀ exchange ∈ (playFrom other pastThere e).1, admits exchange) →
        visible hidden (playFrom world past d).1 = visible hidden (playFrom other pastThere e).1 ∧
          Related (playFrom world past d).2 (playFrom other pastThere e).2 := by
  induction h with
  | done h =>
      intro _ _ _ _ _
      exact ⟨rfl, h⟩
  | @both q next nextThere hq _ ih =>
      intro past pastThere hpast hleft hright
      have hanswer := hworlds past pastThere q hq hpast
      rw [playFrom_ask] at hleft hright ⊢
      rw [playFrom_ask]
      rw [← hanswer] at hright ⊢
      obtain ⟨hvisible, hrelated⟩ := ih (world past q) _ _ (visible_concat_congr hpast _)
        (List.forall_mem_cons.mp hleft).2 (List.forall_mem_cons.mp hright).2
      exact ⟨by rw [visible_cons_of_shown hq, visible_cons_of_shown hq, hvisible], hrelated⟩
  | @left q next e hq _ ih =>
      intro past pastThere hpast hleft hright
      rw [playFrom_ask] at hleft ⊢
      obtain ⟨hadmits, hrest⟩ := List.forall_mem_cons.mp hleft
      have hlook := (visible_concat_of_hidden hq past (world past q)).trans hpast
      obtain ⟨hvisible, hrelated⟩ := ih (world past q) hadmits _ _ hlook hrest hright
      exact ⟨by rw [visible_cons_of_hidden hq, hvisible], hrelated⟩
  | @right q d next hq _ ih =>
      intro past pastThere hpast hleft hright
      rw [playFrom_ask] at hright ⊢
      obtain ⟨hadmits, hrest⟩ := List.forall_mem_cons.mp hright
      have hlook := hpast.trans
        (visible_concat_of_hidden hq pastThere (other pastThere q)).symm
      obtain ⟨hvisible, hrelated⟩ := ih (other pastThere q) hadmits _ _ hlook hleft hrest
      exact ⟨by rw [visible_cons_of_hidden hq, hvisible], hrelated⟩

/-- Played from the start. -/
theorem Parallel.play {world other : World Question Answer}
    (hworlds : SameScript hidden world other) {d : Dialogue Question Answer α}
    {e : Dialogue Question Answer β} (h : Parallel hidden admits Related d e)
    (hleft : ∀ exchange ∈ (play world d).1, admits exchange)
    (hright : ∀ exchange ∈ (play other e).1, admits exchange) :
    visible hidden (play world d).1 = visible hidden (play other e).1 ∧
      Related (play world d).2 (play other e).2 :=
  h.playFrom hworlds [] [] rfl hleft hright

end Dialogue

end ReAct
