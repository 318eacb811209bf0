import ReAct.Proofs.Json.Literal

/-!
# The least length of a text

The text of a value cannot be arbitrarily short: a string takes its two quotes and what has to be
written for its characters, and a container takes its brackets and something between its items.  No
text of a value is shorter than that (`leastLength_le_of_ofChars?`).  The scanner reads one
character at a time, and none of them adds more than one to the least length of what has been read
(`Scan.leastLength_step`); what is assembled from tokens takes no more than they do
(`Due.leastLength_step`).

A string is no shorter than its characters, so it is no longer than its text
(`length_le_of_ofChars?_str`); and where control characters are refused, it takes as much as its
literal (`leastBody_refused`).

## Main Definitions

* `leastLength`: the least length of a text of a value
* `Scan.leastLength`, `Due.leastLength`: the least length of a text that leads to a state
-/

namespace ReAct.Json

/-! ## Characters of a literal -/

/-- The least that a string literal has for a character of its text. -/
def leastEscape (controls : Controls) (c : Char) : Nat :=
  if c.toNat < 0x20 ∧ controls = .allowed then 1 else (escaped false c).length

/-- The least length of the inside of a string literal. -/
def leastBody (controls : Controls) : List Char → Nat
  | [] => 0
  | c :: s => leastEscape controls c + leastBody controls s

theorem leastBody_append (controls : Controls) (s t : List Char) :
    leastBody controls (s ++ t) = leastBody controls s + leastBody controls t := by
  induction s with
  | nil => rw [List.nil_append, leastBody, Nat.zero_add]
  | cons c s ih => rw [List.cons_append, leastBody, leastBody, ih, Nat.add_assoc]

/-- The order of the characters does not matter, so the scanner may collect them in reverse. -/
theorem leastBody_reverse (controls : Controls) (s : List Char) :
    leastBody controls s.reverse = leastBody controls s := by
  induction s with
  | nil => rfl
  | cons c s ih =>
      rw [List.reverse_cons, leastBody_append, ih, leastBody, leastBody, leastBody, Nat.add_zero,
        Nat.add_comm]

/-- Every character has to be written. -/
theorem EscapeOf.length_pos {c : Char} {t : List Char} (h : EscapeOf c t) : 0 < t.length := by
  cases h <;> exact Nat.succ_pos _

/-- Only a character that stands as itself has a single character. -/
theorem EscapeOf.eq_of_length_le {c : Char} {t : List Char} (h : EscapeOf c t)
    (hle : t.length ≤ 1) : t = [c] := by
  cases h with
  | plain => rfl
  | short => exact absurd (Nat.le_of_succ_le_succ hle) (Nat.not_succ_le_zero _)
  | unit n => exact absurd (Nat.le_of_succ_le_succ hle) (Nat.not_succ_le_zero _)
  | pair high low => exact absurd (Nat.le_of_succ_le_succ hle) (Nat.not_succ_le_zero _)

theorem length_unitEscape (n : Nat) : (unitEscape n).length = 6 := by
  rw [unitEscape, hexDigits_four]
  rfl

/-- No character takes more than six when it is written, however it is escaped. -/
theorem length_escaped_le (c : Char) : (escaped false c).length ≤ 6 := by
  unfold escaped
  repeat' split
  all_goals first
    | exact Nat.le_of_ble_eq_true rfl
    | exact Nat.le_of_eq (length_unitEscape _)
    | rename_i hascii; cases hascii

theorem leastEscape_pos (controls : Controls) (c : Char) : 0 < leastEscape controls c := by
  unfold leastEscape
  split
  · exact Nat.one_pos
  · exact (escapeOf_escaped false c).length_pos

theorem leastEscape_le (controls : Controls) (c : Char) : leastEscape controls c ≤ 6 := by
  unfold leastEscape
  split
  · exact Nat.le_add_left 1 5
  · exact length_escaped_le c

/-- A character that may stand as itself. -/
theorem leastEscape_plain {controls : Controls} {c : Char} (hquote : c ≠ '"') (hslash : c ≠ '\\')
    (hcontrol : ¬ (c.toNat < 0x20 ∧ controls = .refused)) : leastEscape controls c = 1 := by
  unfold leastEscape
  split
  · rfl
  · rename_i hraw
    have hlarge : ¬ c.toNat < 0x20 := by
      intro hsmall
      cases controls with
      | refused => exact hcontrol ⟨hsmall, rfl⟩
      | allowed => exact hraw ⟨hsmall, rfl⟩
    have hne {d : Char} (hd : d.toNat < 0x20) : c ≠ d := by
      rintro rfl
      exact hlarge hd
    rw [escaped, if_neg hquote, if_neg hslash, if_neg (hne (by decide)), if_neg (hne (by decide)),
      if_neg (hne (by decide)), if_neg (by omega), if_neg (by omega), if_neg hlarge]
    rfl

/-- A character that has a short escape. -/
theorem leastEscape_short {controls : Controls} {c d : Char} (h : shortEscape? c = some d) :
    leastEscape controls d ≤ 2 := by
  unfold shortEscape? at h
  repeat' split at h
  · rename_i hc
    cases h
    rcases hc with rfl | rfl | rfl <;> cases controls <;> decide
  all_goals cases h
  all_goals cases controls <;> decide

/-- A text is written with at least as many characters as it has. -/
theorem length_le_leastBody (controls : Controls) (s : List Char) :
    s.length ≤ leastBody controls s := by
  induction s with
  | nil => exact Nat.zero_le _
  | cons c s ih =>
      have hpos := leastEscape_pos controls c
      rw [List.length_cons, leastBody]
      omega

/-- Where control characters are refused, no literal is shorter than the one that is written. -/
theorem leastBody_refused (s : List Char) : leastBody .refused s = (body false s).length := by
  induction s with
  | nil => rfl
  | cons c s ih =>
      have hrefused : leastEscape .refused c = (escaped false c).length :=
        if_neg fun h => by cases h.2
      rw [leastBody, hrefused, ih, ← List.length_append]
      rfl

/-- A text of which the literal is no longer is written as it is. -/
theorem body_eq_of_length_le {s : List Char} (h : (body false s).length ≤ s.length) :
    body false s = s := by
  induction s with
  | nil => rfl
  | cons c s ih =>
      have hrest : s.length ≤ (body false s).length := by
        rw [← leastBody_refused]
        exact length_le_leastBody _ s
      have hpos := (escapeOf_escaped false c).length_pos
      have hcons : body false (c :: s) = escaped false c ++ body false s := rfl
      rw [hcons, List.length_append, List.length_cons] at h
      have hplain := (escapeOf_escaped false c).eq_of_length_le (by omega)
      rw [hcons, ih (by omega), hplain]
      rfl

/-! ## Values -/

mutual

/-- The least length of a text of a value. -/
def leastLength (controls : Controls) : Json → Nat
  | .null => 1
  | .bool _ => 1
  | .int _ => 1
  | .float _ => 1
  | .str s => leastBody controls s.toList + 2
  | .arr items => leastItems controls items + 1
  | .obj members => leastMembers controls members + 1

/-- The least length of the items of an array, each with the bracket or comma before it. -/
def leastItems (controls : Controls) : List Json → Nat
  | [] => 0
  | item :: items => leastLength controls item + 1 + leastItems controls items

/-- The least length of the members of an object, each with the brace or comma before it. -/
def leastMembers (controls : Controls) : List (String × Json) → Nat
  | [] => 0
  | (name, value) :: members =>
    leastBody controls name.toList + 4 + leastLength controls value + leastMembers controls members

end

variable (controls : Controls)

theorem leastItems_reverse (items : List Json) :
    leastItems controls items.reverse = leastItems controls items := by
  have hsum (items : List Json) : leastItems controls items =
      (items.map fun item => leastLength controls item + 1).sum := by
    induction items with
    | nil => rfl
    | cons item items ih => rw [leastItems, ih, List.map_cons, List.sum_cons]
  rw [hsum, hsum, List.map_reverse, List.sum_reverse]

/-- A member that is put takes at most its own length. -/
theorem leastMembers_put (members : Fields Json) (name : String) (value : Json) :
    leastMembers controls (members.put name value) ≤
      leastMembers controls members + (leastBody controls name.toList + 4) +
        leastLength controls value := by
  induction members with
  | nil =>
      rw [Fields.put, leastMembers, leastMembers, leastMembers]
      omega
  | cons entry members ih =>
      obtain ⟨other, old⟩ := entry
      rw [Fields.put]
      split
      -- A value that is replaced is no longer counted.
      · rename_i hsame
        subst hsame
        rw [leastMembers, leastMembers]
        omega
      · rw [leastMembers, leastMembers]
        omega

/-- A word stands for a value without parts, which may be as short as one character. -/
theorem leastLength_of_wordValue? {word : List Char} {v : Json} (h : wordValue? word = some v) :
    leastLength controls v = 1 :=
  @wordValue?_induction (fun v => leastLength controls v = 1) rfl (fun _ => rfl) (fun _ => rfl)
    (fun _ => rfl) word v h

/-! ## The scanner -/

/-- The least length of a token. -/
def Token.leastLength : Token → Nat
  | .text s => leastBody controls s.toList + 2
  | .scalar v => Json.leastLength controls v
  | _ => 1

/-- How much of an escape has been read. -/
def Escape.length : Escape → Nat
  | .plain => 0
  | .backslash => 1
  | .digits left _ => 6 - left
  | .pair _ => 6
  | .pairBackslash _ => 7
  | .pairDigits _ left _ => 12 - left

/-- The least length of a token that is not complete. -/
def Mode.leastLength : Mode → Nat
  | .between => 0
  | .word _ => 1
  | .inText value escape => 1 + leastBody controls value + escape.length
  | .failed => 0

/-- The least length of some tokens. -/
def leastTokens : List Token → Nat
  | [] => 0
  | token :: tokens => token.leastLength controls + leastTokens tokens

/-- The least length of a text that leads to a state of the scanner. -/
def Scan.leastLength (s : Scan) : Nat :=
  leastTokens controls s.tokens + s.mode.leastLength controls

theorem leastLength_inText (value : List Char) (escape : Escape) :
    (Mode.inText value escape).leastLength controls =
      1 + leastBody controls value + escape.length :=
  rfl

/-- A scan amounts to its tokens and what it is in the midst of. -/
theorem Scan.leastLength_mk (tokens : List Token) (mode : Mode) :
    Scan.leastLength controls ⟨tokens, mode⟩ =
      leastTokens controls tokens + mode.leastLength controls :=
  rfl

/-- A mark is one character. -/
theorem leastLength_punctuation? {c : Char} {token : Token} (h : punctuation? c = some token) :
    token.leastLength controls = 1 := by
  unfold punctuation? at h
  repeat' split at h
  all_goals first | (cases h; rfl) | cases h

/-- Between tokens, a character pays for what it begins. -/
theorem leastLength_stepBetween (tokens : List Token) (c : Char) :
    (stepBetween tokens c).leastLength controls ≤ leastTokens controls tokens + 1 := by
  unfold stepBetween
  split
  · exact Nat.le_succ _
  · split
    · exact Nat.le_refl _
    · split
      · rename_i token htoken
        rw [Scan.leastLength_mk, leastTokens, leastLength_punctuation? controls htoken,
          Mode.leastLength]
        omega
      · exact Nat.le_refl _

/-- Behind the last digit of a numbered escape. -/
theorem leastLength_numbered (value : List Char) (n : Nat) :
    (numbered value n).leastLength controls ≤ leastBody controls value + 7 := by
  have hchar := leastEscape_le controls (Char.ofNat n)
  unfold numbered
  repeat' split
  all_goals first
    | exact Nat.zero_le _
    | simp only [leastLength_inText, Escape.length, leastBody]; omega

/-- A character that two escapes stand for takes their twelve characters at most, and one for the
step. -/
theorem leastLength_paired (value : List Char) (high low : Nat) :
    (paired value high low).leastLength controls ≤ leastBody controls value + 13 := by
  unfold paired
  split
  · have hchar := leastEscape_le controls
      (Char.ofNat (0x10000 + (high - 0xD800) * 0x400 + (low - 0xDC00)))
    rw [leastLength_inText, Escape.length, leastBody]
    omega
  · exact Nat.zero_le _

/-- One character of a literal. -/
theorem leastLength_stepText (value : List Char) {escape : Escape} {c : Char}
    (h : escape ≠ .plain ∨ c ≠ '"') :
    (stepText controls value escape c).leastLength controls ≤
      (Mode.inText value escape).leastLength controls + 1 := by
  cases escape with
  | plain =>
      have hquote : c ≠ '"' := h.resolve_left fun hne => hne rfl
      rw [stepText]
      split
      · exact Nat.le_refl _
      · rename_i hslash
        split
        · exact Nat.zero_le _
        · rename_i hcontrol
          simp only [leastLength_inText, Escape.length, leastBody,
            leastEscape_plain hquote hslash hcontrol]
          omega
  | backslash =>
      rw [stepText]
      split
      · exact Nat.le_refl _
      · split
        · rename_i d hd
          have hshort := @leastEscape_short controls _ _ hd
          simp only [leastLength_inText, Escape.length, leastBody]
          omega
        · exact Nat.zero_le _
  | digits left n =>
      rw [stepText]
      split
      · rename_i d hd
        -- With the last digit an escape has six characters, which is enough for any character.
        have hnumbered := leastLength_numbered controls value (n * 16 + d)
        split <;> simp only [leastLength_inText, Escape.length] <;> omega
      · exact Nat.zero_le _
  | pair high =>
      rw [stepText]
      split
      · exact Nat.le_refl _
      · exact Nat.zero_le _
  | pairBackslash high =>
      rw [stepText]
      split
      · exact Nat.le_refl _
      · exact Nat.zero_le _
  | pairDigits high left n =>
      rw [stepText]
      split
      · rename_i d hd
        have hpaired := leastLength_paired controls value high (n * 16 + d)
        split <;> simp only [leastLength_inText, Escape.length] <;> omega
      · exact Nat.zero_le _

/-- **One character of a text.** -/
theorem Scan.leastLength_step (s : Scan) (c : Char) :
    (s.step controls c).leastLength controls ≤ s.leastLength controls + 1 := by
  obtain ⟨tokens, mode⟩ := s
  cases mode with
  | between => exact leastLength_stepBetween controls tokens c
  | word word =>
      -- A word that ends becomes a token of length one, which the word had, too.
      by_cases hend : endsWord c = true
      · cases hword : wordValue? word.reverse with
        | none =>
            rw [step_word_fault controls tokens hend hword]
            exact Nat.le_add_right _ 2
        | some v =>
            have hscalar : Token.leastLength controls (.scalar v) = 1 :=
              leastLength_of_wordValue? controls hword
            have hbetween := leastLength_stepBetween controls (.scalar v :: tokens) c
            rw [leastTokens, hscalar] at hbetween
            rw [step_word_end controls tokens hend hword, leastLength_mk controls tokens,
              Mode.leastLength]
            omega
      · rw [step_word controls tokens (by simpa using hend)]
        exact Nat.le_succ _
  | inText value escape =>
      -- The closing quote pays for itself; any other character for what it adds to the text.
      by_cases hclosing : escape = .plain ∧ c = '"'
      · obtain ⟨rfl, rfl⟩ := hclosing
        have hbetween : Mode.leastLength controls .between = 0 := rfl
        rw [step_quote, leastLength_mk, leastLength_mk, leastLength_inText, hbetween,
          leastTokens, Token.leastLength, String.toList_ofList, leastBody_reverse,
          Escape.length]
        omega
      · have hopen : escape ≠ .plain ∨ c ≠ '"' := Classical.not_and_iff_not_or_not.mp hclosing
        have htext := leastLength_stepText controls value hopen
        rw [step_inText controls tokens value hopen, leastLength_mk, leastLength_mk]
        omega
  | failed => exact Nat.le_succ _

/-- What a scan has amounts to no more than the text that it has read, by induction on the text. -/
theorem Scan.leastLength_foldl (s : Scan) (t : List Char) :
    (t.foldl (Scan.step controls) s).leastLength controls ≤ s.leastLength controls + t.length := by
  induction t generalizing s with
  | nil => exact Nat.le_refl _
  | cons c t ih =>
      have hstep := s.leastLength_step controls c
      have hrest := ih (s.step controls c)
      rw [List.foldl_cons, List.length_cons]
      omega

/-! ## What is assembled -/

/-- The least length of what has been read of an open container. -/
def Frame.leastLength : Frame → Nat
  | .items read => leastItems controls read + 1
  | .member read name => leastMembers controls read + (leastBody controls name.toList + 4)

/-- The least length of what has been read of some containers. -/
def leastFrames : List Frame → Nat
  | [] => 0
  | frame :: stack => frame.leastLength controls + leastFrames stack

/-- The least length of what has been assembled. -/
def Due.leastLength : Due → Nat
  | .value _ stack => leastFrames controls stack
  | .name _ read stack => leastMembers controls read + 1 + leastFrames controls stack
  | .colon read key stack =>
    leastMembers controls read + (leastBody controls key.toList + 3) + leastFrames controls stack
  | .afterItem read stack => leastItems controls read + leastFrames controls stack
  | .afterMember read stack => leastMembers controls read + leastFrames controls stack
  | .nothing v => Json.leastLength controls v
  | .fault => 0

/-- A value that is handed over is counted once, in the container that waited for it. -/
theorem leastLength_deliver (v : Json) (stack : List Frame) :
    (deliver v stack).leastLength controls ≤
      Json.leastLength controls v + leastFrames controls stack := by
  cases stack with
  | nil => exact Nat.le_refl _
  | cons frame stack =>
      rw [leastFrames]
      cases frame with
      | items read =>
          rw [deliver, Due.leastLength, leastItems, Frame.leastLength]
          omega
      | member read name =>
          have hput := leastMembers_put controls read name v
          rw [deliver, Due.leastLength, Frame.leastLength]
          omega

/-- **One token.** -/
theorem Due.leastLength_step (due : Due) (token : Token) :
    (due.step token).leastLength controls ≤
      token.leastLength controls + due.leastLength controls := by
  have harr (read : List Json) (stack : List Frame) :
      (deliver (.arr read.reverse) stack).leastLength controls ≤
        leastItems controls read + 1 + leastFrames controls stack := by
    have hle := leastLength_deliver controls (.arr read.reverse) stack
    rwa [Json.leastLength, leastItems_reverse] at hle
  have hobj (read : Fields Json) (stack : List Frame) :
      (deliver (.obj read) stack).leastLength controls ≤
        leastMembers controls read + 1 + leastFrames controls stack := by
    have hle := leastLength_deliver controls (.obj read) stack
    rwa [Json.leastLength] at hle
  unfold Due.step
  split
  case h_1 | h_2 => exact leastLength_deliver controls _ _
  -- The end of an array that was just opened.
  case h_5 =>
    refine Nat.le_trans (harr [] _) ?_
    simp only [Due.leastLength, Token.leastLength, leastFrames, Frame.leastLength]
    omega
  case h_7 | h_12 =>
    refine Nat.le_trans (hobj _ _) ?_
    simp only [Due.leastLength, Token.leastLength]
    omega
  case h_10 =>
    refine Nat.le_trans (harr _ _) ?_
    simp only [Due.leastLength, Token.leastLength]
    omega
  -- Nothing is delivered.
  all_goals
    simp only [Due.leastLength, Token.leastLength, leastFrames, Frame.leastLength, leastItems,
      leastMembers]
    omega

/-- Tokens amount to at least what they make. -/
theorem leastLength_dueAfter (tokens : List Token) :
    (dueAfter tokens).leastLength controls ≤ leastTokens controls tokens := by
  induction tokens with
  | nil => exact Nat.zero_le _
  | cons token tokens ih =>
      have hstep := (dueAfter tokens).leastLength_step controls token
      rw [dueAfter_cons, leastTokens]
      omega

theorem leastLength_le_of_due {tokens : List Token} {v : Json}
    (h : (dueAfter tokens).value? = some v) :
    leastLength controls v ≤ leastTokens controls tokens := by
  have hle := leastLength_dueAfter controls tokens
  rw [Due.eq_nothing_of_value? h] at hle
  exact hle

variable {controls}

/-- **No text of a value is shorter than the least length of the value.** -/
theorem leastLength_le_of_ofChars? {t : List Char} {v : Json} (h : ofChars? controls t = some v) :
    leastLength controls v ≤ t.length := by
  have hle := Scan.start.leastLength_foldl controls t
  have hstart : Scan.start.leastLength controls = 0 := rfl
  rw [hstart, Nat.zero_add] at hle
  refine Nat.le_trans ?_ hle
  rw [ofChars?_eq] at h
  generalize t.foldl (Scan.step controls) .start = scan at h ⊢
  obtain ⟨tokens, mode⟩ := scan
  cases mode with
  | between =>
      rw [value?_between] at h
      exact leastLength_le_of_due controls h
  -- A word at the end of the text is a token as well.
  | word word =>
      rw [value?_word] at h
      obtain ⟨scalar, hscalar, hdue⟩ := Option.bind_eq_some_iff.mp h
      have hword : Token.leastLength controls (.scalar scalar) = 1 :=
        leastLength_of_wordValue? controls hscalar
      have hdue := leastLength_le_of_due controls hdue
      rw [leastTokens, hword] at hdue
      rw [Scan.leastLength_mk, Mode.leastLength]
      omega
  | inText => cases h
  | failed => cases h

/-- **A string is no longer than its text.** -/
theorem length_le_of_ofChars?_str {t : List Char} {s : String}
    (h : ofChars? controls t = some (.str s)) : s.length ≤ t.length := by
  have hle := leastLength_le_of_ofChars? h
  have hbody := length_le_leastBody controls s.toList
  rw [leastLength] at hle
  rw [String.length_toList] at hbody
  omega

end ReAct.Json
