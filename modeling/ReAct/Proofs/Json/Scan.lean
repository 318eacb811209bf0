import ReAct.Json.Reader

/-!
# The two machines of the reader

What one character does to the scanner, by where the scanner stands, and what the tokens so far make
due.  Both machines are folds; here the second one is put on top of the first, so that every state
of the scanner has a value or has none.

## Main Definitions

* `Scan.Added`: the tokens that one character can add
* `Scan.onto`: a state with other tokens before its own
* `dueAfter`: what is due after tokens
* `Scan.value?`: the value of a text that ends in a state of the scanner
-/

namespace ReAct.Json

/-! ## Words -/

/-- What holds of null, of the booleans and of the numbers holds of the value of every word. -/
theorem wordValue?_induction {motive : Json → Prop} (null : motive .null)
    (bool : ∀ value, motive (.bool value)) (int : ∀ value, motive (.int value))
    (float : ∀ value, motive (.float value)) {word : List Char} {v : Json}
    (h : wordValue? word = some v) : motive v := by
  unfold wordValue? at h
  -- The six words that are spelled out, and then numbers.
  repeat' split at h
  · cases h
    exact null
  · cases h
    exact bool true
  · cases h
    exact bool false
  · cases h
    exact float .nan
  · cases h
    exact float (.infinite false)
  · cases h
    exact float (.infinite true)
  · obtain ⟨number, -, rfl⟩ := Option.map_eq_some_iff.mp h
    cases number with
    | int value => exact int value
    | float value => exact float value

/-! ## One character -/

/-- Between tokens, how literals hold their characters does not matter. -/
theorem Scan.step_between (controls : Controls) (tokens : List Token) (c : Char) :
    Scan.step controls ⟨tokens, .between⟩ c = stepBetween tokens c := rfl

/-- A word goes on. -/
theorem Scan.step_word (controls : Controls) (tokens : List Token) {word : List Char} {c : Char}
    (h : endsWord c = false) :
    Scan.step controls ⟨tokens, .word word⟩ c = ⟨tokens, .word (c :: word)⟩ := by
  unfold Scan.step
  simp [h]

/-- A word ends: its value is a token, and the character that ended it is looked at anew. -/
theorem Scan.step_word_end (controls : Controls) (tokens : List Token) {word : List Char}
    {c : Char} {v : Json} (h : endsWord c = true) (hvalue : wordValue? word.reverse = some v) :
    Scan.step controls ⟨tokens, .word word⟩ c = stepBetween (.scalar v :: tokens) c := by
  unfold Scan.step
  simp [h, hvalue]

/-- A word that has no value ends the scan. -/
theorem Scan.step_word_fault (controls : Controls) (tokens : List Token) {word : List Char}
    {c : Char} (h : endsWord c = true) (hvalue : wordValue? word.reverse = none) :
    Scan.step controls ⟨tokens, .word word⟩ c = ⟨tokens, .failed⟩ := by
  unfold Scan.step
  simp [h, hvalue]

theorem Scan.step_failed (controls : Controls) {s : Scan} (h : s.mode = .failed) (c : Char) :
    s.step controls c = s := by
  obtain ⟨tokens, mode⟩ := s
  cases h
  rfl

/-- The closing quote of a literal. -/
theorem Scan.step_quote (controls : Controls) (tokens : List Token) (value : List Char) :
    Scan.step controls ⟨tokens, .inText value .plain⟩ '"' =
      ⟨.text (String.ofList value.reverse) :: tokens, .between⟩ := rfl

/-- Any other character of a literal, and a quote that is escaped. -/
theorem Scan.step_inText (controls : Controls) (tokens : List Token) (value : List Char)
    {escape : Escape} {c : Char} (h : escape ≠ .plain ∨ c ≠ '"') :
    Scan.step controls ⟨tokens, .inText value escape⟩ c =
      ⟨tokens, stepText controls value escape c⟩ := by
  cases escape with
  | plain =>
      have hc := h.resolve_left (fun hne => hne rfl)
      unfold Scan.step
      simp [hc]
  | _ => rfl

theorem stepBetween_space (tokens : List Token) {c : Char} (h : isSpace c = true) :
    stepBetween tokens c = ⟨tokens, .between⟩ := by
  rw [stepBetween, if_pos h]

theorem stepBetween_quote (tokens : List Token) :
    stepBetween tokens '"' = ⟨tokens, .inText [] .plain⟩ := rfl

theorem stepBetween_punctuation (tokens : List Token) {c : Char} {token : Token}
    (h : punctuation? c = some token) : stepBetween tokens c = ⟨token :: tokens, .between⟩ := by
  unfold punctuation? at h
  repeat' split at h
  all_goals first | (subst_vars; cases h; rfl) | cases h

/-- Any other character begins a word. -/
theorem stepBetween_word (tokens : List Token) {c : Char} (hspace : ¬ isSpace c = true)
    (hquote : c ≠ '"') (hpunctuation : punctuation? c = none) :
    stepBetween tokens c = ⟨tokens, .word [c]⟩ := by
  rw [stepBetween, if_neg hspace, if_neg hquote, hpunctuation]

/-- More of a word. -/
theorem scan_wordRest (controls : Controls) (tokens : List Token) {rest : List Char} :
    ∀ {word : List Char}, (∀ c ∈ rest, endsWord c = false) →
      rest.foldl (Scan.step controls) ⟨tokens, .word word⟩ =
        ⟨tokens, .word (rest.reverse ++ word)⟩ := by
  induction rest with
  | nil => exact fun _ => rfl
  | cons c rest ih =>
      intro word h
      obtain ⟨hc, hrest⟩ := List.forall_mem_cons.mp h
      rw [List.foldl_cons, Scan.step_word controls tokens hc, ih hrest, List.reverse_cons,
        List.append_assoc]
      rfl

/-- A word between tokens. -/
theorem scan_word (controls : Controls) (tokens : List Token) {word : List Char} (hne : word ≠ [])
    (hchars : ∀ c ∈ word, endsWord c = false) :
    word.foldl (Scan.step controls) ⟨tokens, .between⟩ = ⟨tokens, .word word.reverse⟩ := by
  cases word with
  | nil => exact absurd rfl hne
  | cons c rest =>
      obtain ⟨hc, hrest⟩ := List.forall_mem_cons.mp hchars
      simp only [endsWord, Bool.or_eq_false_iff, decide_eq_false_iff_not] at hc
      obtain ⟨⟨hspace, hquote⟩, hpunctuation⟩ := hc
      rw [List.foldl_cons, Scan.step_between,
        stepBetween_word tokens (by simp [hspace]) hquote (by simpa using hpunctuation),
        scan_wordRest controls tokens hrest, List.reverse_cons]

/-- A token that came out of one character: punctuation, a string, or the value of a word. -/
inductive Scan.Added (c : Char) : Token → Prop
  | punctuation {token : Token} (h : punctuation? c = some token) : Added c token
  | text (s : String) : Added c (.text s)
  | word {word : List Char} {v : Json} (h : wordValue? word = some v) : Added c (.scalar v)

/-- Between tokens a character adds at most one token, and keeps those that are there. -/
theorem mem_stepBetween {tokens : List Token} {c : Char} {token : Token}
    (h : token ∈ (stepBetween tokens c).tokens) : Scan.Added c token ∨ token ∈ tokens := by
  unfold stepBetween at h
  split at h
  · exact .inr h
  · split at h
    · exact .inr h
    · split at h
      · rename_i added hadded
        rcases List.mem_cons.mp h with rfl | hold
        · exact .inl (.punctuation hadded)
        · exact .inr hold
      · exact .inr h

/-- **What one character adds to the tokens.** -/
theorem Scan.mem_step {controls : Controls} {s : Scan} {c : Char} {token : Token}
    (h : token ∈ (s.step controls c).tokens) : Added c token ∨ token ∈ s.tokens := by
  obtain ⟨tokens, mode⟩ := s
  cases mode with
  | between => exact mem_stepBetween h
  -- The character may end a word, which then is a token, and be a token itself.
  | word word =>
      by_cases hend : endsWord c = true
      · cases hword : wordValue? word.reverse with
        | none =>
            rw [step_word_fault controls tokens hend hword] at h
            exact .inr h
        | some v =>
            rw [step_word_end controls tokens hend hword] at h
            rcases mem_stepBetween h with hadded | hmem
            · exact .inl hadded
            · rcases List.mem_cons.mp hmem with rfl | hold
              · exact .inl (.word hword)
              · exact .inr hold
      · rw [step_word controls tokens (by simpa using hend)] at h
        exact .inr h
  | inText value escape =>
      by_cases hclosing : escape = .plain ∧ c = '"'
      · obtain ⟨rfl, rfl⟩ := hclosing
        rcases List.mem_cons.mp h with rfl | hold
        · exact .inl (.text _)
        · exact .inr hold
      · rw [step_inText controls tokens value (Classical.not_and_iff_not_or_not.mp hclosing)] at h
        exact .inr h
  | failed => exact .inr h

/-- A state with other tokens before those that it has. -/
def Scan.onto (s : Scan) (base : List Token) : Scan :=
  ⟨s.tokens ++ base, s.mode⟩

/-- Between tokens, the tokens below those of the scan stay as they are. -/
theorem stepBetween_onto (tokens base : List Token) (c : Char) :
    stepBetween (tokens ++ base) c = (stepBetween tokens c).onto base := by
  unfold stepBetween
  split
  · rfl
  · split
    · rfl
    · split <;> rfl

/-- The scanner does not look at the tokens that it has. -/
theorem Scan.step_onto (controls : Controls) (s : Scan) (base : List Token) (c : Char) :
    (s.onto base).step controls c = (s.step controls c).onto base := by
  obtain ⟨tokens, mode⟩ := s
  cases mode with
  | between => exact stepBetween_onto tokens base c
  | word word =>
      unfold Scan.step onto
      dsimp only
      split
      -- Only a word that ends looks at the tokens, and it puts its own on top of them.
      · split
        · rename_i v _
          exact stepBetween_onto (.scalar v :: tokens) base c
        · rfl
      · rfl
  | inText value escape =>
      cases escape with
      | plain =>
          unfold Scan.step onto
          dsimp only
          split <;> rfl
      | _ => rfl
  | failed => rfl

/-- A scan may be put onto other tokens before or after a text. -/
theorem Scan.foldl_onto (controls : Controls) (s : Scan) (base : List Token) (t : List Char) :
    t.foldl (Scan.step controls) (s.onto base) = (t.foldl (Scan.step controls) s).onto base := by
  induction t generalizing s with
  | nil => rfl
  | cons c t ih => rw [List.foldl_cons, List.foldl_cons, step_onto, ih]

/-! ## What tokens lead to -/

/-- What is due after tokens, latest first. -/
def dueAfter (tokens : List Token) : Due :=
  tokens.foldr (fun token due => due.step token) (.value false [])

@[simp] theorem dueAfter_cons (token : Token) (tokens : List Token) :
    dueAfter (token :: tokens) = (dueAfter tokens).step token := rfl

/-- The scanner has the tokens of a text in reverse, the last one first. -/
theorem ofTokens?_reverse (tokens : List Token) :
    ofTokens? tokens.reverse = (dueAfter tokens).value? := by
  rw [ofTokens?, List.foldl_reverse, dueAfter]

@[simp] theorem Due.step_fault (token : Token) : Due.step .fault token = .fault := by
  cases token <;> rfl

/-- A complete value is spoilt by any further token. -/
@[simp] theorem Due.step_nothing (v : Json) (token : Token) :
    Due.step (.nothing v) token = .fault := by
  cases token <;> rfl

/-- Only a complete value is a value. -/
theorem Due.eq_nothing_of_value? {due : Due} {v : Json} (h : due.value? = some v) :
    due = .nothing v := by
  cases due with
  | nothing w => exact congrArg Due.nothing (Option.some.inj h)
  | _ => cases h

/-- The value of a text that ends in a state of the scanner. -/
def Scan.value? (s : Scan) : Option Json :=
  s.finish.bind ofTokens?

theorem ofChars?_eq (controls : Controls) (t : List Char) :
    ofChars? controls t = (t.foldl (Scan.step controls) .start).value? := rfl

theorem value?_between (tokens : List Token) :
    Scan.value? ⟨tokens, .between⟩ = (dueAfter tokens).value? :=
  ofTokens?_reverse tokens

/-- A word may stand at the very end of a text, where nothing ends it. -/
theorem value?_word (tokens : List Token) (word : List Char) :
    Scan.value? ⟨tokens, .word word⟩ =
      (wordValue? word.reverse).bind fun v => (dueAfter (.scalar v :: tokens)).value? := by
  have hfinish : Scan.finish ⟨tokens, .word word⟩ =
      (wordValue? word.reverse).map fun v => (Token.scalar v :: tokens).reverse := rfl
  rw [Scan.value?, hfinish]
  cases wordValue? word.reverse with
  | none => rfl
  | some v => exact ofTokens?_reverse (.scalar v :: tokens)

/-! ## Control characters -/

/-- A scan that has failed is over, by induction on what follows. -/
theorem Scan.foldl_failed (controls : Controls) {s : Scan} (h : s.mode = .failed) (t : List Char) :
    t.foldl (Scan.step controls) s = s := by
  induction t with
  | nil => rfl
  | cons c t ih => rw [List.foldl_cons, step_failed controls h, ih]

/-- Where control characters may stand in literals, a literal goes on as it would without them,
unless it would have failed. -/
theorem stepText_allowed (controls : Controls) (value : List Char) (escape : Escape) (c : Char) :
    stepText controls value escape c = .failed ∨
      stepText controls value escape c = stepText .allowed value escape c := by
  cases escape with
  | plain =>
      rw [stepText, stepText]
      split
      · exact .inr rfl
      · split
        · exact .inl rfl
        · exact .inr (if_neg (fun h => by cases h.2)).symm
  | _ => exact .inr rfl

/-- Where control characters are refused, the scanner fails or does what it does elsewhere. -/
theorem Scan.step_allowed (controls : Controls) (s : Scan) (c : Char) :
    (s.step controls c).mode = .failed ∨ s.step controls c = s.step .allowed c := by
  obtain ⟨tokens, mode⟩ := s
  cases mode with
  | inText value escape =>
      by_cases hclosing : escape = .plain ∧ c = '"'
      · obtain ⟨rfl, rfl⟩ := hclosing
        exact .inr rfl
      · have hopen : escape ≠ .plain ∨ c ≠ '"' := Classical.not_and_iff_not_or_not.mp hclosing
        rw [step_inText controls tokens value hopen, step_inText .allowed tokens value hopen]
        exact (stepText_allowed controls value escape c).imp_right (congrArg (Scan.mk tokens))
  | _ => exact .inr rfl

/-- A text that has a value keeps it where control characters may stand as themselves. -/
theorem ofChars?_allowed {controls : Controls} {t : List Char} {v : Json}
    (h : ofChars? controls t = some v) : ofChars? .allowed t = some v := by
  rw [ofChars?_eq] at h ⊢
  revert h
  -- By induction on the text, from any state: as long as the strict reader does not fail, both take
  -- the same steps.
  generalize Scan.start = s
  induction t generalizing s with
  | nil => exact id
  | cons c t ih =>
      rw [List.foldl_cons, List.foldl_cons]
      intro h
      obtain hfailed | hsame := s.step_allowed controls c
      · have hfinish : (s.step controls c).value? = none := by
          rw [Scan.value?, Scan.finish, hfailed]
          rfl
        rw [Scan.foldl_failed controls hfailed, hfinish] at h
        cases h
      · rw [hsame] at h
        exact ih _ h

end ReAct.Json
