import ReAct.Json.Printer
import ReAct.Proofs.Json.Scan

/-!
# String literals

A string literal denotes the text that it was written for, whether characters beyond ASCII are
escaped or not, and whether control characters may stand as themselves or not
(`scan_literal`).  The scanner is followed character by character: what is written for a character
takes it from one ordinary position of the literal to the next, with that character read.
-/

namespace ReAct.Json

open Text

/-- Reads on inside of a string literal. -/
theorem scan_inText (controls : Controls) (tokens : List Token) (value : List Char)
    {escape : Escape} {c : Char} (h : escape ≠ .plain) (rest : List Char) :
    (c :: rest).foldl (Scan.step controls) ⟨tokens, .inText value escape⟩ =
      rest.foldl (Scan.step controls) ⟨tokens, stepText controls value escape c⟩ := by
  rw [List.foldl_cons, Scan.step_inText controls tokens value (.inl h)]

/-! ## Numbered escapes -/

theorem hexValue?_hexDigit {n : Nat} (h : n < 16) : hexValue? (hexDigit n) = some n := by
  have hall : ∀ n : Fin 16, hexValue? (hexDigit n.val) = some n.val := by decide
  exact hall ⟨n, h⟩

/-- The four digits of a 16-bit unit. -/
theorem hexDigits_four (n : Nat) :
    hexDigits 4 n = [hexDigit (n / 4096 % 16), hexDigit (n / 256 % 16), hexDigit (n / 16 % 16),
      hexDigit (n % 16)] := by
  simp [hexDigits, Nat.div_div_eq_div_mul]

/-- What holds of every hexadecimal digit holds of the digits of a 16-bit unit. -/
theorem forall_mem_hexDigits {p : Char → Prop} (h : ∀ n : Fin 16, p (hexDigit n.val)) (n : Nat) :
    ∀ c ∈ hexDigits 4 n, p c := by
  have hlt (m : Nat) : m % 16 < 16 := Nat.mod_lt m (by decide)
  intro c hc
  rw [hexDigits_four] at hc
  simp only [List.mem_cons, List.not_mem_nil, or_false] at hc
  rcases hc with rfl | rfl | rfl | rfl <;> exact h ⟨_, hlt _⟩

/-- What holds of the characters that escapes are made of holds of every character of an escape. -/
theorem forall_mem_unitEscape {p : Char → Prop} (hslash : p '\\') (hmark : p 'u')
    (hdigit : ∀ n : Fin 16, p (hexDigit n.val)) (n : Nat) : ∀ c ∈ unitEscape n, p c := by
  intro c hc
  rcases List.mem_cons.mp hc with rfl | hc
  · exact hslash
  rcases List.mem_cons.mp hc with rfl | hc
  · exact hmark
  · exact forall_mem_hexDigits hdigit n c hc

/-- The four digits of a number below `2 ^ 16` give it back. -/
theorem hexDigits_value {n : Nat} (h : n < 0x10000) :
    (((0 * 16 + n / 4096 % 16) * 16 + n / 256 % 16) * 16 + n / 16 % 16) * 16 + n % 16 = n := by
  omega

/-- Four digits, for either place where the scanner reads them: `reading` is the place and `done`
where it goes on after the last digit. -/
theorem scan_hexDigits (controls : Controls) (tokens : List Token) (value : List Char)
    (reading : Nat → Nat → Escape) (done : Nat → Mode) (hplain : ∀ left n, reading left n ≠ .plain)
    (hstep : ∀ left n d, d < 16 → stepText controls value (reading left n) (hexDigit d) =
      if left ≤ 1 then done (n * 16 + d) else .inText value (reading (left - 1) (n * 16 + d)))
    {n : Nat} (h : n < 0x10000) :
    (hexDigits 4 n).foldl (Scan.step controls) ⟨tokens, .inText value (reading 4 0)⟩ =
      ⟨tokens, done n⟩ := by
  have hlt (m : Nat) : m % 16 < 16 := Nat.mod_lt m (by decide)
  rw [hexDigits_four]
  rw [scan_inText _ _ _ (hplain _ _), hstep _ _ _ (hlt _), if_neg (by decide)]
  rw [scan_inText _ _ _ (hplain _ _), hstep _ _ _ (hlt _), if_neg (by decide)]
  rw [scan_inText _ _ _ (hplain _ _), hstep _ _ _ (hlt _), if_neg (by decide)]
  rw [scan_inText _ _ _ (hplain _ _), hstep _ _ _ (hlt _), if_pos (by decide), hexDigits_value h]
  rfl

/-- An escape is read as the number in it. -/
theorem scan_unitEscape (controls : Controls) (tokens : List Token) (value : List Char) {n : Nat}
    (h : n < 0x10000) :
    (unitEscape n).foldl (Scan.step controls) ⟨tokens, .inText value .plain⟩ =
      ⟨tokens, numbered value n⟩ := by
  have hmark : (unitEscape n).foldl (Scan.step controls) ⟨tokens, .inText value .plain⟩ =
      (hexDigits 4 n).foldl (Scan.step controls) ⟨tokens, .inText value (.digits 4 0)⟩ := rfl
  rw [hmark]
  refine scan_hexDigits controls tokens value .digits (numbered value) (fun _ _ h => ?_) ?_ h
  · cases h
  intro left m d hd
  rw [stepText, hexValue?_hexDigit hd]

/-- Behind the first half of a pair, an escape is read as the second half. -/
theorem scan_secondEscape (controls : Controls) (tokens : List Token) (value : List Char)
    (high : Nat) {n : Nat} (h : n < 0x10000) :
    (unitEscape n).foldl (Scan.step controls) ⟨tokens, .inText value (.pair high)⟩ =
      ⟨tokens, paired value high n⟩ := by
  have hmark : (unitEscape n).foldl (Scan.step controls) ⟨tokens, .inText value (.pair high)⟩ =
      (hexDigits 4 n).foldl (Scan.step controls)
        ⟨tokens, .inText value (.pairDigits high 4 0)⟩ := rfl
  rw [hmark]
  refine scan_hexDigits controls tokens value (.pairDigits high) (paired value high)
    (fun _ _ h => ?_) ?_ h
  · cases h
  intro left m d hd
  rw [stepText, hexValue?_hexDigit hd]

/-- A character by the number of its unit, or by the halves of a surrogate pair. -/
theorem scan_unitEscapes (controls : Controls) (tokens : List Token) (value : List Char)
    (c : Char) :
    (unitEscapes c).foldl (Scan.step controls) ⟨tokens, .inText value .plain⟩ =
      ⟨tokens, .inText (c :: value) .plain⟩ := by
  have hvalid : c.toNat < 0xD800 ∨ 0xDFFF < c.toNat ∧ c.toNat < 0x110000 := c.valid
  unfold unitEscapes
  split
  -- One escape below `U+10000`, and two halves from there on.
  · rename_i hsmall
    rw [scan_unitEscape controls tokens value hsmall, numbered, if_neg (by omega),
      if_neg (by omega), Char.ofNat_toNat]
  · rename_i hlarge
    dsimp only
    generalize hrest : c.toNat - 0x10000 = rest
    have hchar : 0x10000 + (0xD800 + rest / 0x400 - 0xD800) * 0x400 +
        (0xDC00 + rest % 0x400 - 0xDC00) = c.toNat := by omega
    rw [List.foldl_append, scan_unitEscape controls tokens value (by omega), numbered,
      if_pos (by omega), scan_secondEscape controls tokens value _ (by omega), paired,
      if_pos (by omega), hchar, Char.ofNat_toNat]

/-! ## Characters -/

/-- What may be written for a character of a string literal: the character itself, a back-slash and
a mark, or the number of a 16-bit unit, or of two. -/
inductive EscapeOf (c : Char) : List Char → Prop
  | plain (hquote : c ≠ '"') (hslash : c ≠ '\\') (hfeed : c ≠ '\n') (hreturn : c ≠ '\r') :
      EscapeOf c [c]
  | short {mark : Char} (h : mark ∈ ['"', '\\', 'n', 'r', 't', 'b', 'f']) :
      EscapeOf c ['\\', mark]
  | unit (n : Nat) : EscapeOf c (unitEscape n)
  | pair (high low : Nat) : EscapeOf c (unitEscape high ++ unitEscape low)

theorem escapeOf_unitEscapes (c : Char) : EscapeOf c (unitEscapes c) :=
  iteInduction (fun _ => .unit _) fun _ => .pair _ _

/-- However a character is written, it is written in one of the ways that are read as the
character. -/
theorem escapeOf_escaped (asciiOnly : Bool) (c : Char) : EscapeOf c (escaped asciiOnly c) := by
  refine iteInduction (fun _ => .short (by decide)) fun hquote => ?_
  refine iteInduction (fun _ => .short (by decide)) fun hslash => ?_
  refine iteInduction (fun _ => .short (by decide)) fun hfeed => ?_
  refine iteInduction (fun _ => .short (by decide)) fun hreturn => ?_
  refine iteInduction (fun _ => .short (by decide)) fun _ => ?_
  refine iteInduction (fun _ => .short (by decide)) fun _ => ?_
  refine iteInduction (fun _ => .short (by decide)) fun _ => ?_
  refine iteInduction (fun _ => .unit _) fun _ => ?_
  refine iteInduction (fun _ => escapeOf_unitEscapes c) fun _ => ?_
  exact .plain hquote hslash hfeed hreturn

/-- A text that is written in one of two ways is read in the same way if both are. -/
theorem scan_ite {p : Prop} [Decidable p] {controls : Controls} {first second : List Char}
    {state next : Scan} (hfirst : p → first.foldl (Scan.step controls) state = next)
    (hsecond : ¬ p → second.foldl (Scan.step controls) state = next) :
    (if p then first else second).foldl (Scan.step controls) state = next :=
  iteInduction (motive := fun text : List Char => text.foldl (Scan.step controls) state = next)
    hfirst hsecond

/-- What is written for a character is read as that character. -/
theorem scan_escaped (controls : Controls) (asciiOnly : Bool) (tokens : List Token)
    (value : List Char) (c : Char) :
    (escaped asciiOnly c).foldl (Scan.step controls) ⟨tokens, .inText value .plain⟩ =
      ⟨tokens, .inText (c :: value) .plain⟩ := by
  have hnumber {n : Nat} (h : c.toNat = n) : c = Char.ofNat n := by rw [← h, Char.ofNat_toNat]
  -- One step for each way of writing a character, in the order in which the writer tries them.
  unfold escaped
  refine scan_ite (fun hc => ?_) fun hquote => ?_
  · subst hc
    rfl
  refine scan_ite (fun hc => ?_) fun hslash => ?_
  · subst hc
    rfl
  refine scan_ite (fun hc => ?_) fun _ => ?_
  · subst hc
    rfl
  refine scan_ite (fun hc => ?_) fun _ => ?_
  · subst hc
    rfl
  refine scan_ite (fun hc => ?_) fun _ => ?_
  · subst hc
    rfl
  refine scan_ite (fun hc => ?_) fun _ => ?_
  · rw [hnumber hc]
    rfl
  refine scan_ite (fun hc => ?_) fun _ => ?_
  · rw [hnumber hc]
    rfl
  refine scan_ite (fun hcontrol => ?_) fun hcontrol => ?_
  · rw [scan_unitEscape controls tokens value (by omega), numbered, if_neg (by omega),
      if_neg (by omega), Char.ofNat_toNat]
  refine scan_ite (fun _ => scan_unitEscapes controls tokens value c) fun _ => ?_
  rw [List.foldl_cons, Scan.step_inText controls tokens value (.inr hquote), stepText,
    if_neg hslash, if_neg (fun h => hcontrol h.1)]
  rfl

/-- The inside of a literal is read character by character, by induction on the text. -/
theorem scan_body (controls : Controls) (asciiOnly : Bool) (tokens : List Token) (s : List Char) :
    ∀ value : List Char,
      (body asciiOnly s).foldl (Scan.step controls) ⟨tokens, .inText value .plain⟩ =
        ⟨tokens, .inText (s.reverse ++ value) .plain⟩ := by
  unfold body
  induction s with
  | nil => exact fun _ => rfl
  | cons c s ih =>
      intro value
      rw [List.flatMap_cons, List.foldl_append, scan_escaped, ih, List.reverse_cons,
        List.append_assoc]
      rfl

/-- **A string literal is read as the text that it was written for.** -/
theorem scan_literal (controls : Controls) (asciiOnly : Bool) (tokens : List Token) (s : String) :
    (literal asciiOnly s.toList).foldl (Scan.step controls) ⟨tokens, .between⟩ =
      ⟨.text s :: tokens, .between⟩ := by
  rw [literal, List.cons_append, List.foldl_cons, Scan.step_between, stepBetween_quote,
    List.foldl_append, scan_body, List.append_nil, List.foldl_cons, Scan.step_quote,
    List.reverse_reverse, String.ofList_toList]
  rfl

/-- Where control characters are allowed, characters that need no escape stand for themselves. -/
theorem scan_raw (tokens : List Token) {s : List Char} (hquote : '"' ∉ s) (hslash : '\\' ∉ s) :
    ∀ value : List Char, s.foldl (Scan.step .allowed) ⟨tokens, .inText value .plain⟩ =
      ⟨tokens, .inText (s.reverse ++ value) .plain⟩ := by
  induction s with
  | nil => exact fun _ => rfl
  | cons c s ih =>
      intro value
      rw [List.mem_cons, not_or] at hquote hslash
      have hallowed : ¬ (c.toNat < 0x20 ∧ Controls.allowed = .refused) := fun h => by cases h.2
      rw [List.foldl_cons, Scan.step_inText .allowed tokens value (.inr (Ne.symm hquote.1)),
        stepText, if_neg (Ne.symm hslash.1), if_neg hallowed, ih hquote.2 hslash.2,
        List.reverse_cons, List.append_assoc]
      rfl

end ReAct.Json
