import ReAct.Text.Integer
import ReAct.Text.Quoted

/-!
# Digits

The decimal text of a number is a run of ASCII digits without a superfluous zero, and reading it
gives the number back, with or without zeros in front (`asciiNatural?_padded`,
`readNatural?_natural`).  What a run of digits stands for is put together from its parts
(`digitsValue_append`), so zeros in front do not change it and zeros behind multiply it.

## Main Definitions

* `isAsciiDigit`: the ASCII digits
* `digitsValue`: what a run of digits stands for
-/

namespace ReAct.Text

/-- Whether a character is an ASCII digit. -/
def isAsciiDigit (c : Char) : Bool :=
  '0' ≤ c && c ≤ '9'

/-- What a run of digits stands for. -/
def digitsValue (s : List Char) : Nat :=
  s.foldl (fun n c => n * 10 + (c.toNat - '0'.toNat)) 0

/-- A run of digits is read as what it stands for. -/
theorem asciiNatural?_eq {s : List Char} (hne : s ≠ []) (h : ∀ c ∈ s, isAsciiDigit c) :
    asciiNatural? s = some (digitsValue s) := by
  have hempty : s.isEmpty = false := by simpa using hne
  have hall : s.all isAsciiDigit = true := List.all_eq_true.mpr h
  unfold asciiNatural?
  change (if s.isEmpty || !s.all isAsciiDigit then none else some (digitsValue s)) = _
  rw [hempty, hall]
  rfl

/-- Digits behind a number, by induction on the digits. -/
theorem foldl_digits (s : List Char) (n : Nat) :
    s.foldl (fun n c => n * 10 + (c.toNat - '0'.toNat)) n =
      n * Nat.pow 10 s.length + digitsValue s := by
  unfold digitsValue
  induction s generalizing n with
  | nil => simp
  | cons c s ih =>
      rw [List.foldl_cons, List.foldl_cons, ih, ih (0 * 10 + _), List.length_cons]
      have hpow : Nat.pow 10 (s.length + 1) = 10 * Nat.pow 10 s.length := Nat.pow_succ'
      rw [hpow, Nat.add_mul, Nat.zero_mul, Nat.zero_add, Nat.mul_assoc, Nat.add_assoc]

/-- A run of digits stands for its first part, multiplied to make room, and its second part. -/
theorem digitsValue_append (s t : List Char) :
    digitsValue (s ++ t) = digitsValue s * Nat.pow 10 t.length + digitsValue t := by
  rw [digitsValue, List.foldl_append, foldl_digits]
  rfl

/-- Zeros stand for zero, however many there are. -/
theorem digitsValue_zeros (n : Nat) : digitsValue (List.replicate n '0') = 0 := by
  induction n with
  | zero => rfl
  | succ n ih => rw [List.replicate_succ', digitsValue_append, ih, Nat.zero_mul]; rfl

/-! ## Writing a number -/

theorem digitChar_isAsciiDigit {n : Nat} (h : n < 10) : isAsciiDigit (digitChar n) := by
  have hall : ∀ n : Fin 10, isAsciiDigit (digitChar n.val) = true := by decide
  exact hall ⟨n, h⟩

/-- A digit stands for its number. -/
theorem digitChar_value {n : Nat} (h : n < 10) : digitsValue [digitChar n] = n := by
  have hall : ∀ n : Fin 10, digitsValue [digitChar n.val] = n.val := by decide
  exact hall ⟨n, h⟩

theorem digitChar_ne_zero {n : Nat} (h : n < 10) (hpos : 0 < n) : digitChar n ≠ '0' := by
  have hall : ∀ n : Fin 10, 0 < n.val → digitChar n.val ≠ '0' := by decide
  exact hall ⟨n, h⟩ hpos

theorem digitsOnto_of_lt {n : Nat} (h : n < 10) (rest : List Char) :
    digitsOnto n rest = digitChar n :: rest := by
  rw [digitsOnto, if_pos h]

theorem digitsOnto_of_le {n : Nat} (h : 10 ≤ n) (rest : List Char) :
    digitsOnto n rest = digitsOnto (n / 10) (digitChar (n % 10) :: rest) := by
  rw [digitsOnto, if_neg (Nat.not_lt.mpr h)]

/-- The induction by which digits are written: the last one is split off. -/
theorem natural_induction {motive : Nat → Prop} (digit : ∀ n, n < 10 → motive n)
    (more : ∀ n, 10 ≤ n → motive (n / 10) → motive n) (n : Nat) : motive n := by
  induction n using Nat.strongRecOn with
  | ind n ih =>
      by_cases h : n < 10
      · exact digit n h
      · exact more n (by omega) (ih (n / 10) (by omega))

/-- The digits in front of some other ones are the text of the number, by the recursion of the
division by ten. -/
theorem digitsOnto_eq (n : Nat) : ∀ rest : List Char, digitsOnto n rest = natural n ++ rest := by
  unfold natural
  induction n using natural_induction with
  | digit n h =>
      intro rest
      rw [digitsOnto_of_lt h, digitsOnto_of_lt h]
      rfl
  | more n h ih =>
      intro rest
      rw [digitsOnto_of_le h, digitsOnto_of_le h, ih, ih [_], List.append_assoc]
      rfl

theorem natural_of_lt {n : Nat} (h : n < 10) : natural n = [digitChar n] :=
  digitsOnto_of_lt h []

/-- A number of several digits is written as its tenth and its last digit. -/
theorem natural_of_le {n : Nat} (h : 10 ≤ n) :
    natural n = natural (n / 10) ++ [digitChar (n % 10)] := by
  rw [natural, digitsOnto_of_le h, digitsOnto_eq]

/-- A number has at least one digit. -/
theorem natural_ne_nil (n : Nat) : natural n ≠ [] := by
  by_cases h : n < 10
  · rw [natural_of_lt h]
    simp
  · rw [natural_of_le (by omega)]
    simp

/-- The text of a number has nothing but ASCII digits. -/
theorem natural_isAsciiDigit (n : Nat) : ∀ c ∈ natural n, isAsciiDigit c := by
  induction n using natural_induction with
  | digit n h =>
      rw [natural_of_lt h]
      simpa using digitChar_isAsciiDigit h
  | more n h ih =>
      rw [natural_of_le h]
      intro c hc
      rcases List.mem_append.mp hc with hc | hc
      · exact ih c hc
      · rw [List.mem_singleton.mp hc]
        exact digitChar_isAsciiDigit (Nat.mod_lt n (by decide))

/-- The text of a number stands for it. -/
theorem digitsValue_natural (n : Nat) : digitsValue (natural n) = n := by
  induction n using natural_induction with
  | digit n h => rw [natural_of_lt h, digitChar_value h]
  | more n h ih =>
      rw [natural_of_le h, digitsValue_append, ih, digitChar_value (Nat.mod_lt n (by decide))]
      exact Nat.div_add_mod' n 10

/-- The text of a positive number starts with another digit than zero. -/
theorem natural_head {n : Nat} (hpos : 0 < n) : ∃ c rest, natural n = c :: rest ∧ c ≠ '0' := by
  induction n using natural_induction with
  | digit n h => exact ⟨_, [], natural_of_lt h, digitChar_ne_zero h hpos⟩
  | more n h ih =>
      obtain ⟨c, rest, heq, hc⟩ := ih (by omega)
      exact ⟨c, rest ++ [digitChar (n % 10)], by rw [natural_of_le h, heq]; rfl, hc⟩

/-! ## Reading digits of any script -/

/-- An ASCII digit has the same value among the digits of all scripts. -/
theorem digitValue?_of_isAsciiDigit {c : Char} (h : isAsciiDigit c = true) :
    digitValue? c = some (c.toNat - '0'.toNat) := by
  rw [isAsciiDigit, Bool.and_eq_true, decide_eq_true_eq, decide_eq_true_eq] at h
  have hle : c.toNat ≤ '9'.toNat := h.2
  have hascii : c.toNat < 128 := Nat.lt_of_le_of_lt hle (by decide)
  rw [digitValue?, if_pos hascii, if_pos h]

theorem isDigit_of_isAsciiDigit {c : Char} (h : isAsciiDigit c = true) : isDigit c = true := by
  rw [isDigit, digitValue?_of_isAsciiDigit h]
  rfl

/-- ASCII digits are read in the generous way as in the strict one, since none of them is an
underscore. -/
theorem readDigits?_of_isAsciiDigit {s : List Char} (h : ∀ c ∈ s, isAsciiDigit c) (n : Nat) :
    readDigits? n s = some (s.foldl (fun n c => n * 10 + (c.toNat - '0'.toNat)) n) := by
  induction s generalizing n with
  | nil => rfl
  | cons c s ih =>
      obtain ⟨hc, hs⟩ := List.forall_mem_cons.mp h
      have hunderscore : ∀ d more, c = '_' → s = d :: more → False := by
        rintro d more rfl
        cases hc
      rw [readDigits?.eq_3 _ _ _ hunderscore, digitValue?_of_isAsciiDigit hc, Option.bind_some,
        ih hs, List.foldl_cons]

/-- The generous way of reading a number reads what was written, too. -/
theorem readNatural?_natural (n : Nat) : readNatural? (natural n) = some n := by
  obtain ⟨c, s, hcons⟩ := List.exists_cons_of_ne_nil (natural_ne_nil n)
  have hdigits := natural_isAsciiDigit n
  have hvalue := digitsValue_natural n
  rw [hcons] at hdigits hvalue
  obtain ⟨hc, hs⟩ := List.forall_mem_cons.mp hdigits
  rw [digitsValue, List.foldl_cons, Nat.zero_mul, Nat.zero_add] at hvalue
  rw [hcons, readNatural?, digitValue?_of_isAsciiDigit hc, Option.bind_some,
    readDigits?_of_isAsciiDigit hs, hvalue]

/-! ## Padding -/

theorem isAsciiDigit_of_mem_zeros {n : Nat} : ∀ c ∈ List.replicate n '0', isAsciiDigit c := by
  intro c hc
  rw [List.eq_of_mem_replicate hc]
  rfl

theorem padded_ne_nil (fill : Char) (width n : Nat) : padded fill width n ≠ [] := by
  intro h
  exact natural_ne_nil n (List.append_eq_nil_iff.mp h).2

/-- A padded number has nothing but ASCII digits, too. -/
theorem padded_isAsciiDigit (width n : Nat) : ∀ c ∈ padded '0' width n, isAsciiDigit c := by
  intro c hc
  rcases List.mem_append.mp hc with hc | hc
  · exact isAsciiDigit_of_mem_zeros c hc
  · exact natural_isAsciiDigit n c hc

/-- Zeros in front of a number do not change it. -/
theorem digitsValue_zeros_append (n : Nat) (s : List Char) :
    digitsValue (List.replicate n '0' ++ s) = digitsValue s := by
  rw [digitsValue_append, digitsValue_zeros, Nat.zero_mul, Nat.zero_add]

/-- **Reading what was written**, with zeros in front to a given width. -/
theorem asciiNatural?_padded (width n : Nat) : asciiNatural? (padded '0' width n) = some n := by
  rw [asciiNatural?_eq (padded_ne_nil '0' width n) (padded_isAsciiDigit width n), padded,
    digitsValue_zeros_append, digitsValue_natural]

/-- A number below a power of ten has no more digits than the exponent, by induction on it. -/
theorem natural_length_le {width : Nat} :
    ∀ {n : Nat}, n < Nat.pow 10 (width + 1) → (natural n).length ≤ width + 1 := by
  induction width with
  | zero =>
      intro n h
      rw [natural_of_lt h]
      exact Nat.le_refl 1
  | succ width ih =>
      intro n h
      by_cases hsmall : n < 10
      · rw [natural_of_lt hsmall]
        exact Nat.succ_le_succ (Nat.zero_le _)
      · rw [natural_of_le (Nat.not_lt.mp hsmall), List.length_append]
        exact Nat.succ_le_succ (ih ((Nat.div_lt_iff_lt_mul (by decide)).mpr h))

/-- A number that does not fit into `width` digits has more of them. -/
theorem lt_length_natural {width : Nat} :
    ∀ {n : Nat}, Nat.pow 10 width ≤ n → width < (natural n).length := by
  induction width with
  | zero => exact fun _ => List.length_pos_iff.mpr (natural_ne_nil _)
  | succ width ih =>
      intro n h
      have htenth : Nat.pow 10 width ≤ n / 10 := (Nat.le_div_iff_mul_le (by decide)).mpr h
      have hpos : 0 < Nat.pow 10 width := Nat.pow_pos (by decide)
      rw [natural_of_le (by omega), List.length_append]
      exact Nat.succ_lt_succ (ih htenth)

/-- The least integer with more than `width` digits is a power of ten. -/
theorem exists_lt_length_natural (width : Nat) : ∃ n : Int, width < (natural n.natAbs).length :=
  ⟨Nat.pow 10 width, lt_length_natural (Nat.le_refl _)⟩

/-- A number that fits is padded to the very width. -/
theorem padded_length (fill : Char) {width n : Nat} (hpos : 0 < width) (h : n < Nat.pow 10 width) :
    (padded fill width n).length = width := by
  cases width with
  | zero => exact absurd hpos (Nat.lt_irrefl 0)
  | succ width =>
      have hle := natural_length_le h
      unfold padded
      dsimp only
      rw [List.length_append, List.length_replicate]
      omega

end ReAct.Text
