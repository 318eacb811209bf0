import ReAct.Proofs.Json.Scan

/-!
# Nesting of JSON objects

While the tokens of an object are read, what is due says how many objects are open.  The count goes
up by one with every opening brace and down by one with every closing one, and the closing brace
that takes it to zero completes the value (`Due.Within.step`).  A state that cannot be completed any
more, or that is complete already, stays one of these (`dead_foldl`, `value?_of_past`), and inside
of a word that can have no value it is decided that none will be completed (`hopeless_word`).

## Main Definitions

* `Due.Within`: what is due inside a number of open objects
* `Scan.Dead`, `Scan.Past`: states in which no value, or no other value, can be completed
* `Scan.Hopeless`: a state from which no text leads to a value
-/

namespace ReAct.Json

/-! ## Open objects -/

/-- The number of objects among open containers. -/
def openObjects : List Frame → Nat
  | [] => 0
  | .items _ :: stack => openObjects stack
  | .member _ _ :: stack => openObjects stack + 1

/-- Open containers of which the outermost is an object. -/
inductive Rooted : List Frame → Prop
  | root (read : Fields Json) (name : String) : Rooted [.member read name]
  | inner (frame : Frame) {stack : List Frame} (h : Rooted stack) : Rooted (frame :: stack)

/-- What is due inside of a number of open objects, the outermost container being one of them. -/
inductive Due.Within : Due → Nat → Prop
  | value (fresh : Bool) {stack : List Frame} (h : Rooted stack) :
      Within (.value fresh stack) (openObjects stack)
  | name (fresh : Bool) (read : Fields Json) {stack : List Frame} (h : stack = [] ∨ Rooted stack) :
      Within (.name fresh read stack) (openObjects stack + 1)
  | colon (read : Fields Json) (name : String) {stack : List Frame}
      (h : stack = [] ∨ Rooted stack) :
      Within (.colon read name stack) (openObjects stack + 1)
  | afterItem (read : List Json) {stack : List Frame} (h : Rooted stack) :
      Within (.afterItem read stack) (openObjects stack)
  | afterMember (read : Fields Json) {stack : List Frame} (h : stack = [] ∨ Rooted stack) :
      Within (.afterMember read stack) (openObjects stack + 1)

/-- Below a stack with an object at its bottom, an object is open. -/
theorem openObjects_pos {stack : List Frame} (h : Rooted stack) : 0 < openObjects stack := by
  induction h with
  | root => exact Nat.zero_lt_one
  | inner frame h ih =>
      cases frame with
      | items => exact ih
      | member => exact Nat.succ_pos _

/-- An object that is opened keeps an object at the bottom of the stack, or becomes it. -/
theorem rooted_member (read : Fields Json) (name : String) {stack : List Frame}
    (h : stack = [] ∨ Rooted stack) : Rooted (.member read name :: stack) := by
  rcases h with rfl | h
  · exact .root read name
  · exact .inner _ h

/-- A value that is delivered inside of an object leaves as many objects open. -/
theorem deliver_within (v : Json) {stack : List Frame} (h : Rooted stack) :
    (deliver v stack).Within (openObjects stack) := by
  cases h with
  | root read name => exact .afterMember _ (.inl rfl)
  | inner frame h =>
      cases frame with
      | items read => exact .afterItem _ h
      | member read name => exact .afterMember _ (.inr h)

/-- What a token does to the number of open objects. -/
def Due.LeadsTo (depth : Nat) (next : Due) : Token → Prop
  | .openBrace => next.Within (depth + 1)
  | .closeBrace => (depth = 1 ∧ ∃ v, next = .nothing v) ∨ (1 < depth ∧ next.Within (depth - 1))
  | _ => next.Within depth

/-- The brace that closes an object takes one from the count, and hands the object over. -/
theorem leadsTo_closeBrace (v : Json) {stack : List Frame} (h : stack = [] ∨ Rooted stack) :
    Due.LeadsTo (openObjects stack + 1) (deliver v stack) .closeBrace := by
  rcases h with rfl | h
  · exact .inl ⟨rfl, v, rfl⟩
  · exact .inr ⟨Nat.succ_lt_succ (openObjects_pos h), deliver_within v h⟩

/-- An array that has just been opened may be closed at once. -/
theorem closeBracket_of_fresh {stack : List Frame} (h : Rooted stack) :
    Due.step (.value true stack) .closeBracket = .fault ∨
      Due.LeadsTo (openObjects stack) (Due.step (.value true stack) .closeBracket)
        .closeBracket := by
  cases h with
  | root => exact .inl rfl
  | inner frame h =>
      cases frame with
      | member => exact .inl rfl
      | items read =>
          cases read with
          | nil => exact .inr (deliver_within (.arr []) h)
          | cons => exact .inl rfl

/-- **One token.**  The cases are those of what is due; every token that does not fit is a fault. -/
theorem Due.Within.step {due : Due} {depth : Nat} (h : due.Within depth) (token : Token) :
    due.step token = .fault ∨ Due.LeadsTo depth (due.step token) token := by
  cases h with
  | @value fresh stack h =>
      -- In each state few tokens are due; all others are faults.
      cases token with
      | openBrace => exact .inr (.name true [] (.inr h))
      | openBracket => exact .inr (.value true (.inner (.items []) h))
      | text s => exact .inr (deliver_within (.str s) h)
      | scalar v => exact .inr (deliver_within v h)
      | closeBracket =>
          cases fresh with
          | false => exact .inl rfl
          | true => exact closeBracket_of_fresh h
      | closeBrace => exact .inl (by cases fresh <;> rfl)
      | colon => exact .inl (by cases fresh <;> rfl)
      | comma => exact .inl (by cases fresh <;> rfl)
  | @name fresh read stack h =>
      cases token with
      | text s => exact .inr (.colon read s h)
      | closeBrace =>
          cases fresh with
          | true => exact .inr (leadsTo_closeBrace (.obj read) h)
          | false => exact .inl rfl
      | _ => exact .inl (by cases fresh <;> rfl)
  | colon read name h =>
      cases token with
      | colon => exact .inr (.value false (rooted_member read name h))
      | _ => exact .inl rfl
  | afterItem read h =>
      cases token with
      | comma => exact .inr (.value false (.inner (.items read) h))
      | closeBracket => exact .inr (deliver_within (.arr read.reverse) h)
      | _ => exact .inl rfl
  | afterMember read h =>
      cases token with
      | comma => exact .inr (.name false read h)
      | closeBrace => exact .inr (leadsTo_closeBrace (.obj read) h)
      | _ => exact .inl rfl

/-- Inside of an object no value is complete. -/
theorem Due.Within.value?_eq_none {due : Due} {depth : Nat} (h : due.Within depth) :
    due.value? = none := by
  cases h <;> rfl

/-- Inside of an object there is always a token that fits. -/
theorem Due.Within.exists_step {due : Due} {depth : Nat} (h : due.Within depth) :
    ∃ token, due.step token ≠ .fault := by
  cases h with
  | value fresh h =>
      refine ⟨.scalar .null, fun hfault => ?_⟩
      have hwithin := deliver_within .null h
      rw [Due.step] at hfault
      rw [hfault] at hwithin
      cases hwithin
  | name fresh read => exact ⟨.text "", fun hfault => by cases hfault⟩
  | colon read name => exact ⟨.colon, fun hfault => by cases hfault⟩
  | afterItem read => exact ⟨.comma, fun hfault => by cases hfault⟩
  | afterMember read => exact ⟨.comma, fun hfault => by cases hfault⟩

/-! ## States that cannot be completed -/

/-- A state from which no value can be completed. -/
def Scan.Dead (s : Scan) : Prop :=
  s.mode = .failed ∨ dueAfter s.tokens = .fault

/-- A state from which no other value can be completed. -/
def Scan.Past (s : Scan) : Prop :=
  s.mode = .failed ∨ ∀ token, (dueAfter s.tokens).step token = .fault

/-- Where no value can be completed, no other value can. -/
theorem Scan.past_of_dead {s : Scan} (h : s.Dead) : s.Past := by
  rcases h with h | h
  · exact .inl h
  · exact .inr fun token => by rw [h, Due.step_fault]

/-- A complete value is completed by nothing that comes. -/
theorem Scan.past_of_nothing {s : Scan} {v : Json} (h : dueAfter s.tokens = .nothing v) :
    s.Past :=
  .inr fun token => by rw [h, Due.step_nothing]

/-- No token mends a fault. -/
theorem dueAfter_append_fault (added : List Token) {tokens : List Token}
    (h : dueAfter tokens = .fault) : dueAfter (added ++ tokens) = .fault := by
  induction added with
  | nil => exact h
  | cons token added ih => rw [List.cons_append, dueAfter_cons, ih, Due.step_fault]

/-- Where the next token makes a fault in any case, so do the next tokens. -/
theorem dueAfter_append_past {token : Token} (added : List Token) {tokens : List Token}
    (h : ∀ token, (dueAfter tokens).step token = .fault) :
    dueAfter (added ++ token :: tokens) = .fault :=
  dueAfter_append_fault added (h token)

/-- Tokens are only added. -/
theorem stepBetween_tokens (tokens : List Token) (c : Char) :
    ∃ added, (stepBetween tokens c).tokens = added ++ tokens :=
  ⟨(stepBetween [] c).tokens, congrArg Scan.tokens (stepBetween_onto [] tokens c)⟩

/-- The scanner keeps the tokens that it has. -/
theorem Scan.step_tokens (controls : Controls) (s : Scan) (c : Char) :
    ∃ added, (s.step controls c).tokens = added ++ s.tokens :=
  ⟨(Scan.step controls ⟨[], s.mode⟩ c).tokens,
    congrArg Scan.tokens (step_onto controls ⟨[], s.mode⟩ s.tokens c)⟩

/-- No character leads out of a state that cannot be completed. -/
theorem Scan.dead_step (controls : Controls) {s : Scan} (h : s.Dead) (c : Char) :
    (s.step controls c).Dead := by
  rcases h with h | h
  · rw [step_failed controls h c]
    exact .inl h
  · obtain ⟨added, hadded⟩ := step_tokens controls s c
    exact .inr (by rw [hadded, dueAfter_append_fault added h])

/-- A character that makes no token keeps a complete value, and one that makes a token spoils it. -/
theorem Scan.past_step (controls : Controls) {s : Scan} (h : s.Past) (c : Char) :
    (s.step controls c).Past := by
  rcases h with h | h
  · rw [step_failed controls h c]
    exact .inl h
  · obtain ⟨added, hadded⟩ := step_tokens controls s c
    -- Tokens are kept in reverse: the first one that is added is the last one of the list.
    cases hlast : added.reverse with
    | nil =>
        rw [List.reverse_eq_nil_iff] at hlast
        subst hlast
        exact .inr fun token => by rw [hadded]; exact h token
    | cons token rest =>
        have hsplit : added = rest.reverse ++ [token] := by simpa using congrArg List.reverse hlast
        refine past_of_dead (.inr ?_)
        rw [hadded, hsplit, List.append_assoc]
        exact dueAfter_append_past _ h

/-- No text leads out of a state that cannot be completed. -/
theorem Scan.dead_foldl (controls : Controls) {s : Scan} (h : s.Dead) (t : List Char) :
    (t.foldl (Scan.step controls) s).Dead := by
  induction t generalizing s with
  | nil => exact h
  | cons c t ih => exact ih (dead_step controls h c)

/-- No text leads out of a state that is complete already, either. -/
theorem Scan.past_foldl (controls : Controls) {s : Scan} (h : s.Past) (t : List Char) :
    (t.foldl (Scan.step controls) s).Past := by
  induction t generalizing s with
  | nil => exact h
  | cons c t ih => exact ih (past_step controls h c)

/-! ## Their texts have no value -/

/-- A state that cannot be completed has no value, not even at the end of a word. -/
theorem value?_of_dead {s : Scan} (h : s.Dead) : s.value? = none := by
  obtain ⟨tokens, mode⟩ := s
  rcases h with h | h
  · cases h
    rfl
  · replace h : dueAfter tokens = .fault := h
    cases mode with
    | between => rw [value?_between, h]; rfl
    | word word =>
        rw [value?_word]
        cases wordValue? word.reverse with
        | none => rfl
        | some v => rw [Option.bind_some, dueAfter_cons, h]; rfl
    | inText => rfl
    | failed => rfl

/-- A state from which no text leads to a value. -/
def Scan.Hopeless (controls : Controls) (s : Scan) : Prop :=
  ∀ t : List Char, (t.foldl (Scan.step controls) s).value? = none

/-- No text brings hope back. -/
theorem Scan.Hopeless.foldl {controls : Controls} {s : Scan} (h : s.Hopeless controls)
    (t : List Char) : (t.foldl (Scan.step controls) s).Hopeless controls := by
  intro u
  rw [← List.foldl_append]
  exact h (t ++ u)

/-- A state that cannot be completed is one. -/
theorem Scan.Dead.hopeless {controls : Controls} {s : Scan} (h : s.Dead) :
    s.Hopeless controls :=
  fun t => value?_of_dead (dead_foldl controls h t)

/-- **A word that has no value that may stand there**, however it goes on.  The character that ends
it at the latest is a fault. -/
theorem hopeless_word {controls : Controls} {tokens : List Token} {word : List Char}
    (h : ∀ more v, wordValue? (word.reverse ++ more) = some v →
      (dueAfter tokens).step (.scalar v) = .fault) :
    Scan.Hopeless controls ⟨tokens, .word word⟩ := by
  intro t
  induction t generalizing word with
  | nil =>
      rw [List.foldl_nil, value?_word]
      cases hword : wordValue? word.reverse with
      | none => rfl
      | some v =>
          rw [Option.bind_some, dueAfter_cons, h [] v (by rwa [List.append_nil])]
          rfl
  | cons c t ih =>
      rw [List.foldl_cons]
      -- Either the word goes on, and the hypothesis still says that it has no fitting value, or it
      -- ends and whatever it stands for is a fault.
      cases hends : endsWord c with
      | false =>
          rw [Scan.step_word controls tokens hends]
          exact ih fun more v hv => h (c :: more) v (by simpa using hv)
      | true =>
          refine Scan.Dead.hopeless ?_ t
          cases hword : wordValue? word.reverse with
          | none =>
              rw [Scan.step_word_fault controls tokens hends hword]
              exact .inl rfl
          | some v =>
              rw [Scan.step_word_end controls tokens hends hword]
              obtain ⟨added, hadded⟩ := stepBetween_tokens (.scalar v :: tokens) c
              have hfault : dueAfter (.scalar v :: tokens) = .fault :=
                h [] v (by rwa [List.append_nil])
              exact .inr (by rw [hadded, dueAfter_append_fault added hfault])

/-- Such a word between tokens. -/
theorem hopeless_of_word {controls : Controls} {tokens : List Token} {word : List Char}
    (hne : word ≠ []) (hchars : ∀ c ∈ word, endsWord c = false)
    (h : ∀ more v, wordValue? (word ++ more) = some v →
      (dueAfter tokens).step (.scalar v) = .fault) :
    (word.foldl (Scan.step controls) ⟨tokens, .between⟩).Hopeless controls := by
  rw [scan_word controls tokens hne hchars]
  exact hopeless_word (by rwa [List.reverse_reverse])

/-- Inside of a literal nothing is finished. -/
theorem finish_stepText (controls : Controls) (tokens : List Token) (value : List Char)
    (escape : Escape) (c : Char) :
    Scan.finish ⟨tokens, stepText controls value escape c⟩ = none := by
  unfold stepText numbered paired
  repeat' split
  all_goals rfl

/-- A value that is complete cannot be followed by another closing brace. -/
theorem value?_of_past (controls : Controls) {s : Scan} (h : s.Past) :
    (s.step controls '\x7d').value? = none := by
  obtain ⟨tokens, mode⟩ := s
  cases mode with
  -- The brace is a token of its own except inside of a literal, and one more token is a fault.
  | between =>
      have hfault := h.resolve_left (fun hmode => by cases hmode)
      exact value?_of_dead (.inr (hfault .closeBrace))
  | word word =>
      cases hword : wordValue? word.reverse with
      | none =>
          rw [Scan.step_word_fault controls tokens rfl hword]
          rfl
      | some v =>
          have hfault := h.resolve_left (fun hmode => by cases hmode)
          rw [Scan.step_word_end controls tokens rfl hword]
          exact value?_of_dead (.inr (dueAfter_append_past [.closeBrace] hfault))
  | inText value escape =>
      rw [Scan.step_inText controls tokens value (.inr (by decide))]
      rw [Scan.value?, finish_stepText]
      rfl
  | failed => rfl

/-- Nor by a quote: it begins another value, or it completes one too many. -/
theorem value?_quote_of_past (controls : Controls) {s : Scan} (h : s.Past) :
    (s.step controls '"').value? = none := by
  obtain ⟨tokens, mode⟩ := s
  cases mode with
  -- A quote that opens a literal leaves it open; one that closes a literal adds a token, which is a
  -- fault.
  | between => rfl
  | word word =>
      cases hword : wordValue? word.reverse with
      | none =>
          rw [Scan.step_word_fault controls tokens rfl hword]
          rfl
      | some v =>
          rw [Scan.step_word_end controls tokens rfl hword]
          rfl
  | inText value escape =>
      by_cases hclosing : escape = .plain
      · subst hclosing
        have hfault := h.resolve_left (fun hmode => by cases hmode)
        exact value?_of_dead (.inr (hfault (.text _)))
      · rw [Scan.step_inText controls tokens value (.inl hclosing), Scan.value?, finish_stepText]
        rfl
  | failed => rfl

end ReAct.Json
