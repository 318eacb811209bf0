import ReAct.Dialogue

/-!
# Histories of dialogues

What a dialogue does is seen from outside as a history: the questions that it asked, each with the
answer that it got.  `Yields` relates a dialogue to the histories that it can have and to the result
that each of them leads to; `play` carries a dialogue out against a world, whose answers may depend
on everything that was asked and answered before.

`play` is total, so a dialogue ends whatever the world answers, and `play_yields` makes every fact
about the histories of `Yields` a fact about all worlds.

## Main Definitions

* `Exchange`: a question with its answer
* `Dialogue.Yields`: the histories of a dialogue, and their results
* `Dialogue.Asks`: a dialogue all of whose questions have a property
* `Dialogue.World`, `Dialogue.play`: an arbitrary world, and the history of a dialogue in it
-/

namespace ReAct

/-- A question with the answer that it got. -/
structure Exchange (Question : Type) (Answer : Question → Type) where
  question : Question
  answer : Answer question

namespace Dialogue

variable {Question : Type} {Answer : Question → Type} {α β : Type}

/-- `d.Yields history a`: if the world answers as `history` says, then `d` asks exactly the
questions of `history`, in order, and ends with the result `a`. -/
def Yields : Dialogue Question Answer α → List (Exchange Question Answer) → α → Prop
  | .done a, history, b => history = [] ∧ b = a
  | .ask q next, history, b => ∃ answer rest, history = ⟨q, answer⟩ :: rest ∧
      (next answer).Yields rest b

/-- What a world answers to a question, in view of everything that happened before. -/
abbrev World (Question : Type) (Answer : Question → Type) : Type :=
  List (Exchange Question Answer) → (q : Question) → Answer q

/-- Carries a dialogue out in a world in which `past` has happened. -/
def playFrom (world : World Question Answer) :
    (past : List (Exchange Question Answer)) → Dialogue Question Answer α →
      List (Exchange Question Answer) × α
  | _, .done a => ([], a)
  | past, .ask q next =>
    let exchange : Exchange Question Answer := ⟨q, world past q⟩
    let (history, a) := playFrom world (past ++ [exchange]) (next (world past q))
    (exchange :: history, a)

/-- Carries a dialogue out in a world in which nothing has happened yet. -/
def play (world : World Question Answer) (d : Dialogue Question Answer α) :
    List (Exchange Question Answer) × α :=
  playFrom world [] d

theorem playFrom_ask (world : World Question Answer) (past : List (Exchange Question Answer))
    (q : Question) (next : Answer q → Dialogue Question Answer α) :
    let rest := playFrom world (past ++ [⟨q, world past q⟩]) (next (world past q))
    playFrom world past (.ask q next) = (⟨q, world past q⟩ :: rest.1, rest.2) := rfl

@[simp] theorem yields_done {a b : α} {history : List (Exchange Question Answer)} :
    (Dialogue.done a : Dialogue Question Answer α).Yields history b ↔ history = [] ∧ b = a :=
  Iff.rfl

@[simp] theorem yields_pure {a b : α} {history : List (Exchange Question Answer)} :
    (pure a : Dialogue Question Answer α).Yields history b ↔ history = [] ∧ b = a :=
  Iff.rfl

/-- A question yields any answer, and a history of one exchange. -/
@[simp] theorem yields_question {q : Question} {r : Answer q}
    {history : List (Exchange Question Answer)} :
    (question q : Dialogue Question Answer (Answer q)).Yields history r ↔ history = [⟨q, r⟩] := by
  constructor
  · rintro ⟨answer, rest, rfl, rfl, rfl⟩
    rfl
  · rintro rfl
    exact ⟨r, [], rfl, rfl, rfl⟩

/-- A history of two dialogues in sequence is a history of the first and then one of the second. -/
theorem yields_bind {d : Dialogue Question Answer α} {f : α → Dialogue Question Answer β}
    {history : List (Exchange Question Answer)} {b : β} :
    (d >>= f).Yields history b ↔
      ∃ first second a, history = first ++ second ∧ d.Yields first a ∧ (f a).Yields second b := by
  induction d generalizing history with
  | done a =>
      rw [bind_done]
      constructor
      · intro h
        exact ⟨[], history, a, rfl, ⟨rfl, rfl⟩, h⟩
      · rintro ⟨_, second, _, rfl, ⟨rfl, rfl⟩, h⟩
        exact h
  | ask q next ih =>
      rw [bind_ask]
      constructor
      · rintro ⟨answer, rest, rfl, h⟩
        obtain ⟨first, second, a, rfl, hfirst, hsecond⟩ := (ih answer).mp h
        exact ⟨⟨q, answer⟩ :: first, second, a, rfl, ⟨answer, first, rfl, hfirst⟩, hsecond⟩
      · rintro ⟨_, second, a, rfl, ⟨answer, first, rfl, hfirst⟩, hsecond⟩
        have h := (ih answer).mpr ⟨first, second, a, rfl, hfirst, hsecond⟩
        exact ⟨answer, first ++ second, rfl, h⟩

/-! ## What a dialogue asks -/

/-- A dialogue all of whose questions have a property, whatever is answered. -/
def Asks (P : Question → Prop) : Dialogue Question Answer α → Prop
  | .done _ => True
  | .ask q next => P q ∧ ∀ answer, Asks P (next answer)

theorem asks_pure {P : Question → Prop} (a : α) : (pure a : Dialogue Question Answer α).Asks P :=
  trivial

theorem asks_question {P : Question → Prop} {q : Question} (hq : P q) :
    (question q : Dialogue Question Answer (Answer q)).Asks P :=
  ⟨hq, fun _ => trivial⟩

/-- What is asked may be described more generously. -/
theorem Asks.mono {P P' : Question → Prop} (hP : ∀ q, P q → P' q)
    {d : Dialogue Question Answer α} (h : d.Asks P) : d.Asks P' := by
  induction d with
  | done a => trivial
  | ask q next ih => exact ⟨hP q h.1, fun answer => ih answer (h.2 answer)⟩

/-- A sequence asks what its parts ask. -/
theorem Asks.bind {P : Question → Prop} {d : Dialogue Question Answer α}
    {f : α → Dialogue Question Answer β} (hd : d.Asks P) (hf : ∀ a, (f a).Asks P) :
    (d >>= f).Asks P := by
  induction d with
  | done a => exact hf a
  | ask q next ih => exact ⟨hd.1, fun answer => ih answer (hd.2 answer)⟩

/-- Every question of a history has been asked. -/
theorem Asks.of_yields {P : Question → Prop} {d : Dialogue Question Answer α} (h : d.Asks P)
    {history : List (Exchange Question Answer)} {a : α} (hyields : d.Yields history a) :
    ∀ exchange ∈ history, P exchange.question := by
  induction d generalizing history with
  | done b =>
      obtain ⟨rfl, -⟩ := hyields
      exact fun _ hmem => by cases hmem
  | ask q next ih =>
      obtain ⟨answer, rest, rfl, hrest⟩ := hyields
      exact List.forall_mem_cons.mpr ⟨h.1, ih answer (h.2 answer) hrest⟩

/-! ## Worlds -/

/-- What a world answers is one of the histories that are possible, by induction on the dialogue. -/
theorem playFrom_yields (world : World Question Answer) (d : Dialogue Question Answer α) :
    ∀ past : List (Exchange Question Answer),
      d.Yields (playFrom world past d).1 (playFrom world past d).2 := by
  induction d with
  | done a =>
      intro past
      exact ⟨rfl, rfl⟩
  | ask q next ih =>
      intro past
      exact ⟨world past q, _, rfl, ih (world past q) _⟩

/-- What stands in a history was answered by the world, in view of some past. -/
theorem exists_past_of_mem_playFrom (world : World Question Answer)
    (d : Dialogue Question Answer α) {exchange : Exchange Question Answer} :
    ∀ past, exchange ∈ (playFrom world past d).1 →
      ∃ before, exchange.answer = world before exchange.question := by
  induction d with
  | done a =>
      intro past h
      cases h
  | ask q next ih =>
      intro past h
      rw [playFrom_ask] at h
      obtain rfl | hrest := List.mem_cons.mp h
      · exact ⟨past, rfl⟩
      · exact ih (world past q) _ hrest

/-- Every world makes a dialogue end with one of its histories. -/
theorem play_yields (world : World Question Answer) (d : Dialogue Question Answer α) :
    d.Yields (play world d).1 (play world d).2 :=
  playFrom_yields world d []

end Dialogue

end ReAct
