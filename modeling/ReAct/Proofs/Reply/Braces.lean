import ReAct.Proofs.Json.Nesting
import ReAct.Reply.Block

/-!
# The brace that closes an object

The search for the closing brace knows nothing of JSON: it counts braces and skips string literals.
On the text of an object it walks in step with the scanner (`step_pace`), and its depth is the
number of objects that are open, so it stops at the last brace of the text and not before
(`blockAt_eq_self`).

## Main Definitions

* `Sees`: where the search stands when the scanner stands somewhere
* `Pace`: what one character does to both
-/

namespace ReAct.Reply

open Json Text

/-- Where the search for the closing brace stands when the scanner stands as given. -/
inductive Sees : Mode → Inside → Prop
  | between : Sees .between .code
  | word (word : List Char) : Sees (.word word) .code
  | plain (value : List Char) : Sees (.inText value .plain) .literal
  | backslash (value : List Char) : Sees (.inText value .backslash) .escape
  | digits (value : List Char) (left n : Nat) : Sees (.inText value (.digits left n)) .literal
  | pair (value : List Char) (high : Nat) : Sees (.inText value (.pair high)) .literal
  | pairBackslash (value : List Char) (high : Nat) :
      Sees (.inText value (.pairBackslash high)) .escape
  | pairDigits (value : List Char) (high left n : Nat) :
      Sees (.inText value (.pairDigits high left n)) .literal

/-- What one character does: to the search at `depth` and `inside`, and to the scanner, which gets
into the state `next`. -/
inductive Pace (depth : Nat) (inside : Inside) (c : Char) (next : Scan) : Prop
  | dead (h : next.Dead)
  | last (hc : c = '\x7d') (hdepth : depth = 1) (hinside : inside = .code) {v : Json}
      (hdone : dueAfter next.tokens = .nothing v)
  | within {depth' : Nat} {inside' : Inside} (hdue : (dueAfter next.tokens).Within depth')
      (hmode : Sees next.mode inside')
      (hsearch : ∀ rest, closeBraces depth inside (c :: rest) =
        (closeBraces depth' inside' rest).map fun (block, rest) => (c :: block, rest))

/-! ## String literals -/

/-- The character of an escape is passed over. -/
theorem closeBraces_escape (depth : Nat) (c : Char) (rest : List Char) :
    closeBraces depth .escape (c :: rest) =
      (closeBraces depth .literal rest).map fun (block, rest) => (c :: block, rest) := rfl

theorem closeBraces_backslash (depth : Nat) (rest : List Char) :
    closeBraces depth .literal ('\\' :: rest) =
      (closeBraces depth .escape rest).map fun (block, rest) => ('\\' :: block, rest) := rfl

theorem closeBraces_quote (depth : Nat) (rest : List Char) :
    closeBraces depth .literal ('"' :: rest) =
      (closeBraces depth .code rest).map fun (block, rest) => ('"' :: block, rest) := rfl

/-- Inside of a literal, only back-slashes and quotes count. -/
theorem closeBraces_literal (depth : Nat) {c : Char} (rest : List Char) (hslash : c ≠ '\\')
    (hquote : c ≠ '"') :
    closeBraces depth .literal (c :: rest) =
      (closeBraces depth .literal rest).map fun (block, rest) => (c :: block, rest) := by
  rw [closeBraces, if_neg hslash, if_neg hquote]

/-- A digit of a numbered escape is not what a string literal is closed or escaped with. -/
theorem ne_of_hexValue {c : Char} {d : Nat} (h : hexValue? c = some d) : c ≠ '\\' ∧ c ≠ '"' := by
  constructor
  · rintro rfl
    cases h
  · rintro rfl
    cases h

/-- After an escape by number, the scanner and the search are both inside of the literal. -/
theorem numbered_sees (value : List Char) (n : Nat) :
    numbered value n = .failed ∨ Sees (numbered value n) .literal := by
  unfold numbered
  split
  · exact .inr (.pair value n)
  · split
    · exact .inl rfl
    · exact .inr (.plain _)

/-- So they are after the second half of a pair. -/
theorem paired_sees (value : List Char) (high low : Nat) :
    paired value high low = .failed ∨ Sees (paired value high low) .literal := by
  unfold paired
  split
  · exact .inr (.plain _)
  · exact .inl rfl

/-- One character of a string literal that does not close it. -/
theorem stepText_sees (controls : Controls) {value : List Char} {escape : Escape} {inside : Inside}
    {c : Char} (h : Sees (.inText value escape) inside) (hopen : escape ≠ .plain ∨ c ≠ '"')
    (depth : Nat) :
    stepText controls value escape c = .failed ∨
      ∃ inside', Sees (stepText controls value escape c) inside' ∧
        ∀ rest, closeBraces depth inside (c :: rest) =
          (closeBraces depth inside' rest).map fun (block, rest) => (c :: block, rest) := by
  -- By the state inside the text: the search for the brace follows with less, since it only has to
  -- know whether it is inside a text and behind a back-slash.
  cases h with
  | plain =>
      have hquote := hopen.resolve_left (fun hne => hne rfl)
      rw [stepText]
      split
      · rename_i hslash
        subst hslash
        exact .inr ⟨.escape, .backslash value, closeBraces_backslash depth⟩
      · rename_i hslash
        split
        · exact .inl rfl
        · exact .inr ⟨.literal, .plain _, fun rest => closeBraces_literal depth rest hslash hquote⟩
  | backslash =>
      rw [stepText]
      split
      · exact .inr ⟨.literal, .digits value 4 0, closeBraces_escape depth c⟩
      · split
        · exact .inr ⟨.literal, .plain _, closeBraces_escape depth c⟩
        · exact .inl rfl
  | digits _ left n =>
      rw [stepText]
      split
      · rename_i d hd
        obtain ⟨hslash, hquote⟩ := ne_of_hexValue hd
        have hsearch := fun rest => closeBraces_literal depth rest hslash hquote
        split
        · exact (numbered_sees value _).imp_right fun hsees => ⟨.literal, hsees, hsearch⟩
        · exact .inr ⟨.literal, .digits value _ _, hsearch⟩
      · exact .inl rfl
  | pair _ high =>
      rw [stepText]
      split
      · rename_i hslash
        subst hslash
        exact .inr ⟨.escape, .pairBackslash value high, closeBraces_backslash depth⟩
      · exact .inl rfl
  | pairBackslash _ high =>
      rw [stepText]
      split
      · exact .inr ⟨.literal, .pairDigits value high 4 0, closeBraces_escape depth c⟩
      · exact .inl rfl
  | pairDigits _ high left n =>
      rw [stepText]
      split
      · rename_i d hd
        obtain ⟨hslash, hquote⟩ := ne_of_hexValue hd
        have hsearch := fun rest => closeBraces_literal depth rest hslash hquote
        split
        · exact (paired_sees value high _).imp_right fun hsees => ⟨.literal, hsees, hsearch⟩
        · exact .inr ⟨.literal, .pairDigits value high _ _, hsearch⟩
      · exact .inl rfl

/-! ## Between literals -/

/-- Outside of literals, only quotes and braces count. -/
theorem closeBraces_code (depth : Nat) {c : Char} (rest : List Char) (hquote : c ≠ '"')
    (hopen : c ≠ '\x7b') (hclose : c ≠ '\x7d') :
    closeBraces depth .code (c :: rest) =
      (closeBraces depth .code rest).map fun (block, rest) => (c :: block, rest) := by
  rw [closeBraces, if_neg (fun h => hclose h.1)]
  dsimp only
  rw [if_neg hquote, if_neg hopen, if_neg hclose]

theorem closeBraces_code_quote (depth : Nat) (rest : List Char) :
    closeBraces depth .code ('"' :: rest) =
      (closeBraces depth .literal rest).map fun (block, rest) => ('"' :: block, rest) := rfl

theorem closeBraces_open (depth : Nat) (rest : List Char) :
    closeBraces depth .code ('\x7b' :: rest) =
      (closeBraces (depth + 1) .code rest).map fun (block, rest) => ('\x7b' :: block, rest) := rfl

/-- A closing brace takes one from the depth. -/
theorem closeBraces_close {depth : Nat} (h : 1 < depth) (rest : List Char) :
    closeBraces depth .code ('\x7d' :: rest) =
      (closeBraces (depth - 1) .code rest).map fun (block, rest) => ('\x7d' :: block, rest) := by
  rw [closeBraces, if_neg (fun hlast => absurd hlast.2 (Nat.ne_of_gt h))]
  rfl

theorem closeBraces_last (rest : List Char) :
    closeBraces 1 .code ('\x7d' :: rest) = some (['\x7d'], rest) := rfl

/-- A punctuation character, of which only the braces matter to the search. -/
theorem punctuation_pace {tokens : List Token} {depth : Nat}
    (hdue : (dueAfter tokens).Within depth) {c : Char} {token : Token}
    (h : punctuation? c = some token) : Pace depth .code c ⟨token :: tokens, .between⟩ := by
  obtain hfault | hnext := hdue.step token
  · exact .dead (.inr hfault)
  have hquote : c ≠ '"' := by
    rintro rfl
    cases h
  unfold punctuation? at h
  split at h
  · rename_i hc
    subst hc
    cases h
    exact .within hnext .between (closeBraces_open depth)
  rename_i hopen
  split at h
  · rename_i hc
    subst hc
    cases h
    rcases hnext with ⟨hdepth, v, hdone⟩ | ⟨hdepth, hnext⟩
    · exact .last rfl hdepth rfl hdone
    · exact .within hnext .between (closeBraces_close hdepth)
  rename_i hclose
  -- Brackets, colons and commas are nothing to the search.
  have hsearch := fun rest => closeBraces_code depth rest hquote hopen hclose
  repeat' split at h
  all_goals cases h
  all_goals exact .within hnext .between hsearch

/-- One character between tokens. -/
theorem stepBetween_pace {tokens : List Token} {depth : Nat}
    (hdue : (dueAfter tokens).Within depth) (c : Char) :
    Pace depth .code c (stepBetween tokens c) := by
  -- Spaces and words change no depth; the brackets that do are the punctuation.
  by_cases hspace : isSpace c = true
  · rw [stepBetween_space tokens hspace]
    refine .within hdue .between fun rest => closeBraces_code depth rest ?_ ?_ ?_
    all_goals
      rintro rfl
      exact absurd hspace (by decide)
  by_cases hquote : c = '"'
  · subst hquote
    exact .within hdue (.plain []) (closeBraces_code_quote depth)
  cases hpunctuation : punctuation? c with
  | some token =>
      rw [stepBetween_punctuation tokens hpunctuation]
      exact punctuation_pace hdue hpunctuation
  | none =>
      rw [stepBetween_word tokens hspace hquote hpunctuation]
      refine .within hdue (.word [c]) fun rest => closeBraces_code depth rest hquote ?_ ?_
      all_goals
        rintro rfl
        cases hpunctuation

/-- **One character.**  The search and the scanner keep pace, until no value can come of it or the
last brace is there. -/
theorem step_pace (controls : Controls) {s : Scan} {depth : Nat} {inside : Inside}
    (hdue : (dueAfter s.tokens).Within depth) (hmode : Sees s.mode inside) (c : Char) :
    Pace depth inside c (s.step controls c) := by
  obtain ⟨tokens, mode⟩ := s
  cases mode with
  | between =>
      cases hmode
      exact stepBetween_pace hdue c
  | word word =>
      cases hmode
      cases hend : endsWord c with
      | false =>
          rw [Scan.step_word controls tokens hend]
          refine .within hdue (.word _) fun rest => closeBraces_code depth rest ?_ ?_ ?_
          all_goals
            rintro rfl
            cases hend
      | true =>
          cases hvalue : wordValue? word.reverse with
          | none =>
              rw [Scan.step_word_fault controls tokens hend hvalue]
              exact .dead (.inl rfl)
          -- The character ends the word and is then read as one between tokens.
          | some v =>
              rw [Scan.step_word_end controls tokens hend hvalue]
              obtain hfault | hnext := Due.Within.step hdue (.scalar v)
              · obtain ⟨added, hadded⟩ := stepBetween_tokens (.scalar v :: tokens) c
                refine .dead (.inr ?_)
                rw [hadded]
                exact dueAfter_append_fault added hfault
              · have hscalar : (dueAfter (.scalar v :: tokens)).Within depth := hnext
                exact stepBetween_pace hscalar c
  | inText value escape =>
      by_cases hclosing : escape = .plain ∧ c = '"'
      · obtain ⟨rfl, rfl⟩ := hclosing
        cases hmode
        rw [Scan.step_quote]
        obtain hfault | hnext := Due.Within.step hdue (.text (String.ofList value.reverse))
        · exact .dead (.inr hfault)
        · exact .within hnext .between (closeBraces_quote depth)
      · have hopen : escape ≠ .plain ∨ c ≠ '"' := Classical.not_and_iff_not_or_not.mp hclosing
        rw [Scan.step_inText controls tokens value hopen]
        obtain hfailed | ⟨inside', hsees, hsearch⟩ := stepText_sees controls hmode hopen depth
        · exact .dead (.inl hfailed)
        · exact .within hdue hsees hsearch
  | failed => exact .dead (.inl rfl)

/-- The search on the beginning of a text that may still become the text of an object: it walks
through it as far as the scanner does. -/
theorem closeBraces_append_of_not_past (controls : Controls) {t : List Char} :
    ∀ {s : Scan} {depth : Nat} {inside : Inside}, (dueAfter s.tokens).Within depth →
      Sees s.mode inside → ¬ (t.foldl (Scan.step controls) s).Past →
        ∃ depth' inside',
          (dueAfter (t.foldl (Scan.step controls) s).tokens).Within depth' ∧
            ∀ rest, closeBraces depth inside (t ++ rest) =
              (closeBraces depth' inside' rest).map fun (block, rest) => (t ++ block, rest) := by
  induction t with
  | nil =>
      intro s depth inside hdue _ _
      exact ⟨depth, inside, hdue, fun rest => Option.map_id'.symm⟩
  | cons c t ih =>
      intro s depth inside hdue hmode hopen
      rw [List.foldl_cons] at hopen ⊢
      -- By what a step does: a fault or an end would have been past the value.
      cases step_pace controls hdue hmode c with
      | dead hdead =>
          exact absurd (Scan.past_of_dead (Scan.dead_foldl controls hdead t)) hopen
      | last _ _ _ hdone =>
          exact absurd (Scan.past_foldl controls (Scan.past_of_nothing hdone) t) hopen
      | within hdue' hmode' hsearch =>
          obtain ⟨depth', inside', hwithin, hrest⟩ := ih hdue' hmode' hopen
          refine ⟨depth', inside', hwithin, fun rest => ?_⟩
          rw [List.cons_append, hsearch, hrest, Option.map_map]
          rfl

/-- The search from the brace that opens an object on. -/
theorem blockAt_append_of_not_past (controls : Controls) {t : List Char}
    (h : ¬ (('\x7b' :: t).foldl (Scan.step controls) .start).Past) :
    ∃ depth inside,
      (dueAfter (('\x7b' :: t).foldl (Scan.step controls) .start).tokens).Within depth ∧
        ∀ rest, blockAt ('\x7b' :: t ++ rest) =
          (closeBraces depth inside rest).map
            fun (block, rest) => ('\x7b' :: t ++ block, rest) := by
  have hdue : (dueAfter (Scan.step controls .start '\x7b').tokens).Within 1 :=
    .name true [] (.inl rfl)
  rw [List.foldl_cons] at h ⊢
  obtain ⟨depth, inside, hwithin, hrest⟩ := closeBraces_append_of_not_past controls hdue .between h
  refine ⟨depth, inside, hwithin, fun rest => ?_⟩
  rw [blockAt, List.cons_append, closeBraces_open, hrest, Option.map_map]
  rfl

/-! ## The text of an object -/

/-- Inside of an object no value is complete. -/
theorem value?_of_within {s : Scan} {depth : Nat} {inside : Inside}
    (hdue : (dueAfter s.tokens).Within depth) (hmode : Sees s.mode inside) : s.value? = none := by
  obtain ⟨tokens, mode⟩ := s
  cases hmode with
  | between =>
      rw [value?_between]
      exact hdue.value?_eq_none
  | word word =>
      rw [value?_word]
      cases wordValue? word.reverse with
      | none => rfl
      | some v =>
          rw [Option.bind_some, dueAfter_cons]
          obtain hfault | hnext := hdue.step (.scalar v)
          · exact congrArg Due.value? hfault
          · exact Due.Within.value?_eq_none hnext
  | _ => rfl

/-- The search on what is left of a text that ends with a brace and has a value. -/
theorem closeBraces_of_value (controls : Controls) {v : Json} {t : List Char} :
    ∀ {s : Scan} {depth : Nat} {inside : Inside}, (dueAfter s.tokens).Within depth →
      Sees s.mode inside → t.getLast? = some '\x7d' →
        (t.foldl (Scan.step controls) s).value? = some v →
          closeBraces depth inside t = some (t, []) := by
  induction t with
  | nil =>
      intro s depth inside _ _ hlast
      cases hlast
  | cons c t ih =>
      intro s depth inside hdue hmode hlast hvalue
      rw [List.foldl_cons] at hvalue
      cases step_pace controls hdue hmode c with
      | dead hdead =>
          rw [value?_of_dead (Scan.dead_foldl controls hdead t)] at hvalue
          cases hvalue
      | last hc hdepth hinside hdone =>
          subst hc hdepth hinside
          rw [closeBraces_last]
          -- Had the text more behind this brace, it would end with one brace too many.
          cases ht : t.getLast? with
          | none =>
              rw [List.getLast?_eq_none_iff] at ht
              rw [ht]
          | some d =>
              obtain ⟨init, rfl⟩ := List.getLast?_eq_some_iff.mp ht
              rw [← List.cons_append, List.getLast?_concat] at hlast
              cases hlast
              have hpast := Scan.past_foldl controls (Scan.past_of_nothing hdone) init
              rw [List.foldl_append, List.foldl_cons, List.foldl_nil,
                value?_of_past controls hpast] at hvalue
              cases hvalue
      | within hdue' hmode' hsearch =>
          rw [hsearch]
          cases t with
          | nil =>
              rw [List.foldl_nil, value?_of_within hdue' hmode'] at hvalue
              cases hvalue
          | cons d t =>
              rw [List.getLast?_cons_cons] at hlast
              rw [ih hdue' hmode' hlast hvalue]
              rfl

/-- **The block at the brace that opens an object is the whole text of the object.** -/
theorem blockAt_eq_self {controls : Controls} {t : List Char} {v : Json}
    (hvalue : ofChars? controls t = some v) (hopen : t.head? = some '\x7b')
    (hclose : t.getLast? = some '\x7d') : blockAt t = some (t, []) := by
  obtain ⟨rest, rfl⟩ : ∃ rest, t = '\x7b' :: rest := by
    cases t with
    | nil => cases hopen
    | cons c rest => exact ⟨rest, by rw [Option.some.inj hopen]⟩
  rw [ofChars?_eq, List.foldl_cons] at hvalue
  have hdue : (dueAfter (Scan.step controls .start '\x7b').tokens).Within 1 :=
    .name true [] (.inl rfl)
  rw [blockAt, closeBraces_open]
  cases rest with
  | nil => cases hclose
  | cons d rest =>
      rw [List.getLast?_cons_cons] at hclose
      rw [closeBraces_of_value controls hdue .between hclose hvalue]
      rfl

/-- What follows a block does not matter to the search for it. -/
theorem closeBraces_followed {s block rest : List Char} (more : List Char) :
    ∀ {depth : Nat} {inside : Inside}, closeBraces depth inside s = some (block, rest) →
      closeBraces depth inside (s ++ more) = some (block, rest ++ more) := by
  induction s generalizing block with
  | nil =>
      intro depth inside h
      cases inside <;> cases h
  | cons c s ih =>
      intro depth inside h
      have hmap {depth : Nat} {inside : Inside}
          (h : (closeBraces depth inside s).map (fun (block, rest) => (c :: block, rest)) =
            some (block, rest)) :
          (closeBraces depth inside (s ++ more)).map (fun (block, rest) => (c :: block, rest)) =
            some (block, rest ++ more) := by
        obtain ⟨⟨inner, _⟩, hinner, heq⟩ := Option.map_eq_some_iff.mp h
        cases heq
        rw [ih hinner]
        rfl
      rw [List.cons_append]
      cases inside with
      | escape => exact hmap h
      | literal => exact hmap h
      | code =>
          rw [closeBraces] at h ⊢
          split at h
          · rename_i hlast
            cases h
            rw [if_pos hlast]
          · rename_i hnot
            rw [if_neg hnot]
            exact hmap h

/-- What the search takes is a prefix of the text. -/
theorem closeBraces_append {s block rest : List Char} :
    ∀ {depth : Nat} {inside : Inside}, closeBraces depth inside s = some (block, rest) →
      s = block ++ rest := by
  induction s generalizing block with
  | nil =>
      intro depth inside h
      cases inside <;> cases h
  | cons c s ih =>
      intro depth inside h
      have hmap {depth : Nat} {inside : Inside}
          (h : (closeBraces depth inside s).map (fun (block, rest) => (c :: block, rest)) =
            some (block, rest)) : c :: s = block ++ rest := by
        obtain ⟨⟨inner, _⟩, hinner, heq⟩ := Option.map_eq_some_iff.mp h
        cases heq
        rw [ih hinner, List.cons_append]
      cases inside with
      | escape => exact hmap h
      | literal => exact hmap h
      | code =>
          rw [closeBraces] at h
          split at h
          · cases h
            rfl
          · exact hmap h

end ReAct.Reply
