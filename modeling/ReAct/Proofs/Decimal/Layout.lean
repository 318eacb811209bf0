import Mathlib.Data.List.TakeDrop
import ReAct.Decimal.Layout
import ReAct.Proofs.Decimal.Nearest
import ReAct.Proofs.Text.Digits

/-!
# Reading a number that was written

The written form of a double is a number of the JSON grammar, whatever the layout: a whole part that
does not start with a superfluous zero, and a fraction or an exponent or both.  What it says is the
shortest decimal of the double, up to zeros at the end of the digits, so it reads back as that
double (`readNumber?_text`).  The written form of an integer reads back as that integer.
-/

namespace ReAct.Decimal

open Text Double

/-! ## The parts of a number -/

theorem spanDigits_eq (s : List Char) : spanDigits s = s.span isAsciiDigit := rfl

/-- Digits are split off up to the first other character. -/
theorem spanDigits_append {digits rest : List Char} (hdigits : ∀ c ∈ digits, isAsciiDigit c)
    (hrest : ∀ c ∈ rest.head?, isAsciiDigit c = false) :
    spanDigits (digits ++ rest) = (digits, rest) := by
  have hstop : rest.takeWhile isAsciiDigit = [] ∧ rest.dropWhile isAsciiDigit = rest := by
    cases rest with
    | nil => exact ⟨rfl, rfl⟩
    | cons c rest =>
        have hc := hrest c rfl
        exact ⟨by simp [hc], by simp [hc]⟩
  rw [spanDigits_eq, List.span_eq_takeWhile_dropWhile, List.takeWhile_append_of_pos hdigits,
    List.dropWhile_append_of_pos hdigits, hstop.1, hstop.2, List.append_nil]

theorem spanDigits_self {digits : List Char} (hdigits : ∀ c ∈ digits, isAsciiDigit c) :
    spanDigits digits = (digits, []) := by
  have h := @spanDigits_append digits [] hdigits (by simp)
  rwa [List.append_nil] at h

theorem isIntegerPart_cons {c : Char} (rest : List Char) (hc : c ≠ '0') :
    isIntegerPart (c :: rest) = true := by
  unfold isIntegerPart
  split
  · contradiction
  · rename_i heq
    cases heq
    exact absurd rfl hc
  · rename_i heq
    cases heq
    simpa using hc

/-- The digits of a positive number begin an integer part, whatever follows them. -/
theorem isIntegerPart_natural_append {n : Nat} (hpos : 0 < n) (rest : List Char) :
    isIntegerPart (natural n ++ rest) = true := by
  obtain ⟨c, more, heq, hc⟩ := natural_head hpos
  rw [heq, List.cons_append]
  exact isIntegerPart_cons _ hc

/-- The sign of an exponent. -/
def exponentSign (exponent : Int) : Char :=
  if exponent < 0 then '-' else '+'

/-- An exponent is read back, with its sign and its zeros. -/
theorem readExponent?_padded (width : Nat) (exponent : Int) :
    readExponent? ('e' :: exponentSign exponent :: padded '0' width exponent.natAbs) =
      some exponent := by
  unfold exponentSign
  by_cases hneg : exponent < 0
  · have habs : -(exponent.natAbs : Int) = exponent := by omega
    rw [if_pos hneg, readExponent?, if_pos (.inl rfl), asciiNatural?_padded]
    exact congrArg some habs
  · have habs : (exponent.natAbs : Int) = exponent := by omega
    rw [if_neg hneg, readExponent?, if_pos (.inl rfl), asciiNatural?_padded]
    exact congrArg some habs

/-! ## The forms of a number -/

/-- A run of digits is read as an integer. -/
theorem readUnsigned?_integer (negative : Bool) {whole : List Char}
    (hwhole : ∀ c ∈ whole, isAsciiDigit c) (hpart : isIntegerPart whole = true) :
    readUnsigned? negative whole =
      some (.int (if negative then -(digitsValue whole : Int) else digitsValue whole)) := by
  have hne : whole ≠ [] := by
    rintro rfl
    cases hpart
  rw [readUnsigned?, spanDigits_self hwhole]
  dsimp only
  rw [hpart, asciiNatural?_eq hne hwhole]
  rfl

/-- Digits on both sides of a point are read as one number, with the exponent that follows less the
digits behind the point. -/
theorem readUnsigned?_fraction (negative : Bool) {whole fraction rest : List Char} {exponent : Int}
    (hwhole : ∀ c ∈ whole, isAsciiDigit c) (hpart : isIntegerPart whole = true)
    (hfraction : ∀ c ∈ fraction, isAsciiDigit c) (hne : fraction ≠ [])
    (hstop : ∀ c ∈ rest.head?, isAsciiDigit c = false)
    (hrest : readExponent? rest = some exponent) :
    readUnsigned? negative (whole ++ '.' :: (fraction ++ rest)) =
      some (.float (ofDecimal negative (digitsValue (whole ++ fraction))
        (exponent - fraction.length))) := by
  have hdigits : ∀ c ∈ whole ++ fraction, isAsciiDigit c := by
    intro c hc
    exact (List.mem_append.mp hc).elim (hwhole c) (hfraction c)
  have hboth : whole ++ fraction ≠ [] := by simp [hne]
  have hform : readUnsigned? negative (whole ++ '.' :: (fraction ++ rest)) =
      if (spanDigits (fraction ++ rest)).1.isEmpty then none
      else
        (asciiNatural? (whole ++ (spanDigits (fraction ++ rest)).1)).bind fun digits =>
          (readExponent? (spanDigits (fraction ++ rest)).2).map fun exponent =>
            .float (ofDecimal negative digits
              (exponent - (spanDigits (fraction ++ rest)).1.length)) := by
    rw [readUnsigned?, spanDigits_append hwhole (by simp [isAsciiDigit])]
    dsimp only
    rw [hpart]
    rfl
  rw [hform, spanDigits_append hfraction hstop]
  dsimp only
  rw [if_neg (by simpa using hne), asciiNatural?_eq hboth hdigits, hrest]
  rfl

/-- Digits with an exponent, without a point. -/
theorem readUnsigned?_exponent (negative : Bool) {whole rest : List Char} {exponent : Int}
    (hwhole : ∀ c ∈ whole, isAsciiDigit c) (hpart : isIntegerPart whole = true)
    (hrest : readExponent? ('e' :: rest) = some exponent) :
    readUnsigned? negative (whole ++ 'e' :: rest) =
      some (.float (ofDecimal negative (digitsValue whole) exponent)) := by
  have hne : whole ≠ [] := by
    rintro rfl
    cases hpart
  have hform : readUnsigned? negative (whole ++ 'e' :: rest) =
      (asciiNatural? whole).bind fun digits =>
        (readExponent? ('e' :: rest)).map fun exponent =>
          .float (ofDecimal negative digits exponent) := by
    rw [readUnsigned?, spanDigits_append hwhole (by simp [isAsciiDigit])]
    dsimp only
    rw [hpart]
    rfl
  rw [hform, asciiNatural?_eq hne hwhole, hrest]
  rfl

/-- A number with a point and no exponent. -/
theorem readUnsigned?_point (negative : Bool) (whole fraction : List Char)
    (hdigits : ∀ c ∈ whole ++ fraction, isAsciiDigit c) (hpart : isIntegerPart whole = true)
    (hne : fraction ≠ []) :
    readUnsigned? negative (whole ++ '.' :: fraction) =
      some (.float (ofDecimal negative (digitsValue (whole ++ fraction)) (-fraction.length))) := by
  have hwhole : ∀ c ∈ whole, isAsciiDigit c := fun c hc =>
    hdigits c (List.mem_append.mpr (.inl hc))
  have hfraction : ∀ c ∈ fraction, isAsciiDigit c := fun c hc =>
    hdigits c (List.mem_append.mpr (.inr hc))
  have hread := readUnsigned?_fraction negative hwhole hpart hfraction hne
    (fun c hc => by cases hc) (rfl : readExponent? [] = some 0)
  rwa [List.append_nil, Int.zero_sub] at hread

/-! ## Reading doubles -/

/-- All digits behind the point, and zeros in front of them. -/
theorem readUnsigned?_pointBefore (negative : Bool) (n zeros : Nat) :
    readUnsigned? negative ('0' :: '.' :: List.replicate zeros '0' ++ natural n) =
      some (.float (ofDecimal negative n (-(zeros + (natural n).length : Nat)))) := by
  have hdigits : ∀ c ∈ ['0'] ++ (List.replicate zeros '0' ++ natural n), isAsciiDigit c := by
    intro c hc
    rcases List.mem_append.mp hc with hc | hc
    · rw [List.mem_singleton.mp hc]
      rfl
    · exact (List.mem_append.mp hc).elim (isAsciiDigit_of_mem_zeros c) (natural_isAsciiDigit n c)
  have hread := readUnsigned?_point negative ['0'] (List.replicate zeros '0' ++ natural n) hdigits
    rfl (by simp [natural_ne_nil])
  have hvalue : digitsValue (['0'] ++ (List.replicate zeros '0' ++ natural n)) = n := by
    have hzeros := digitsValue_zeros_append (zeros + 1) (natural n)
    rw [digitsValue_natural] at hzeros
    exact hzeros
  rw [hvalue, List.length_append, List.length_replicate] at hread
  exact hread

/-- All digits in front of the point, and zeros behind them. -/
theorem readUnsigned?_pointBehind (negative : Bool) {n : Nat} (hpos : 0 < n) (zeros : Nat) :
    readUnsigned? negative (natural n ++ List.replicate zeros '0' ++ ['.', '0']) =
      some (.float (ofDecimal negative n zeros)) := by
  have hdigits : ∀ c ∈ natural n ++ List.replicate zeros '0' ++ ['0'], isAsciiDigit c := by
    intro c hc
    rcases List.mem_append.mp hc with hc | hc
    · exact (List.mem_append.mp hc).elim (natural_isAsciiDigit n c) (isAsciiDigit_of_mem_zeros c)
    · rw [List.mem_singleton.mp hc]
      rfl
  have hread := readUnsigned?_point negative (natural n ++ List.replicate zeros '0') ['0'] hdigits
    (isIntegerPart_natural_append hpos _) (List.cons_ne_nil _ _)
  have hvalue : digitsValue (natural n ++ List.replicate zeros '0' ++ ['0']) =
      n * Nat.pow 10 (zeros + 1) := by
    rw [List.append_assoc, ← List.replicate_succ', digitsValue_append, digitsValue_zeros,
      digitsValue_natural, List.length_replicate, Nat.add_zero]
  rw [hvalue, ofDecimal_mul_pow negative (Nat.ne_of_gt hpos)] at hread
  have hexponent : -([('0' : Char)].length : Int) + (zeros + 1 : Nat) = zeros := by
    rw [List.length_singleton]
    omega
  rw [hexponent] at hread
  exact hread

/-- The point among the digits. -/
theorem readUnsigned?_pointAmong (negative : Bool) {n whole : Nat} (hpos : 0 < n)
    (hwhole : 0 < whole) (hlt : whole < (natural n).length) :
    readUnsigned? negative ((natural n).take whole ++ '.' :: (natural n).drop whole) =
      some (.float (ofDecimal negative n (-((natural n).length - whole : Nat)))) := by
  have hpart : isIntegerPart ((natural n).take whole) = true := by
    obtain ⟨c, rest, heq, hc⟩ := natural_head hpos
    cases whole with
    | zero => exact absurd hwhole (Nat.lt_irrefl 0)
    | succ whole =>
        rw [heq, List.take_succ_cons]
        exact isIntegerPart_cons _ hc
  have hne : (natural n).drop whole ≠ [] := by
    rw [ne_eq, List.drop_eq_nil_iff]
    exact Nat.not_le.mpr hlt
  have hread := readUnsigned?_point negative ((natural n).take whole) ((natural n).drop whole)
    (by simpa only [List.take_append_drop] using natural_isAsciiDigit n) hpart hne
  rw [List.take_append_drop, digitsValue_natural, List.length_drop] at hread
  exact hread

/-- The positional form, by where the point falls: before the digits, behind them, among them. -/
theorem readUnsigned?_positional (negative : Bool) {n : Nat} (hpos : 0 < n) (exponent : Int) :
    readUnsigned? negative (positional (natural n) (exponent + (natural n).length - 1)) =
      some (.float (ofDecimal negative n exponent)) := by
  have hlength : 0 < (natural n).length := List.length_pos_iff.mpr (natural_ne_nil n)
  unfold positional
  dsimp only
  split
  · rw [readUnsigned?_pointBefore]
    congr 3
    omega
  · split
    · rw [readUnsigned?_pointBehind negative hpos]
      congr 3
      omega
    · rw [readUnsigned?_pointAmong negative hpos (Nat.zero_lt_succ _) (by omega)]
      congr 3
      omega

/-- The scientific form, with and without a point. -/
theorem readUnsigned?_scientific (negative : Bool) (layout : Layout) {n : Nat} (hpos : 0 < n)
    (exponent : Int) :
    readUnsigned? negative (scientific layout (natural n) (exponent + (natural n).length - 1)) =
      some (.float (ofDecimal negative n exponent)) := by
  obtain ⟨c, rest, heq, hc⟩ := natural_head hpos
  have hdigits := natural_isAsciiDigit n
  have hvalue := digitsValue_natural n
  rw [heq] at hdigits hvalue ⊢
  generalize hleading : exponent + (c :: rest).length - 1 = leading
  have hexponent := readExponent?_padded layout.exponentWidth leading
  have hpart := isIntegerPart_cons [] hc
  unfold scientific
  cases rest with
  | nil =>
      have hsame : exponent = leading := by
        rw [← hleading, List.length_singleton]
        omega
      have hread := readUnsigned?_exponent negative hdigits hpart hexponent
      rw [hvalue] at hread
      rw [hsame]
      exact hread
  | cons d rest =>
      have hsame : exponent = leading - (d :: rest).length := by
        rw [← hleading, List.length_cons]
        omega
      have hread := readUnsigned?_fraction negative
        (fun c' hc' => hdigits c' (by rw [List.mem_singleton.mp hc']; exact List.mem_cons_self))
        hpart (fun c' hc' => hdigits c' (List.mem_cons_of_mem c hc')) (List.cons_ne_nil d rest)
        (by simp [isAsciiDigit]) hexponent
      have hboth : digitsValue ([c] ++ d :: rest) = n := hvalue
      rw [hboth] at hread
      rw [hsame]
      exact hread

/-- In either layout, a decimal is read back. -/
theorem readUnsigned?_render (negative : Bool) (layout : Layout) (d : Double.Decimal)
    (hpos : 0 < d.digits) :
    readUnsigned? negative (render layout d) =
      some (.float (ofDecimal negative d.digits d.exponent)) := by
  unfold render
  dsimp only
  split
  · exact readUnsigned?_positional negative hpos d.exponent
  · exact readUnsigned?_scientific negative layout hpos d.exponent

/-! ## Reading numbers -/

/-- What remains of a number when its sign is taken off. -/
def unsigned (layout : Layout) (rank : Fin rankLimit) : List Char :=
  if rank.val = 0 then positional ['0'] 0 else render layout (shortest rank)

theorem text_finite (layout : Layout) (negative : Bool) (rank : Fin rankLimit) :
    text layout (.finite negative rank) =
      (if negative then ['-'] else []) ++ unsigned layout rank :=
  rfl

/-- A finite number is read back from the digits that were chosen for it. -/
theorem readUnsigned?_unsigned (layout : Layout) (negative : Bool) (rank : Fin rankLimit) :
    readUnsigned? negative (unsigned layout rank) = some (.float (.finite negative rank)) := by
  unfold unsigned
  split
  · rename_i hzero
    have hrank : rank = ⟨0, by decide⟩ := Fin.ext hzero
    rw [hrank]
    exact readUnsigned?_point negative ['0'] ['0'] (by simp [isAsciiDigit]) rfl
      (List.cons_ne_nil _ _)
  · rename_i hne
    have hpos := Nat.pos_of_ne_zero hne
    rw [readUnsigned?_render negative layout _ (Nat.pos_of_ne_zero (shortest_digits_ne_zero hpos)),
      ofDecimal_negative negative (shortest_toDouble hpos)]

/-- No number begins with anything but a sign or a digit. -/
theorem readUnsigned?_of_head (negative : Bool) {c : Char} (hc : isAsciiDigit c = false)
    (rest : List Char) : readUnsigned? negative (c :: rest) = none := by
  have hspan : spanDigits (c :: rest) = ([], c :: rest) :=
    @spanDigits_append [] (c :: rest) (by simp) (by simpa using hc)
  rw [readUnsigned?, hspan]
  rfl

/-- A number begins with a digit or a minus. -/
theorem readNumber?_of_head {c : Char} (hc : isAsciiDigit c = false) (hminus : c ≠ '-')
    (rest : List Char) : readNumber? (c :: rest) = none := by
  rw [readNumber?.eq_2 _ (by simpa using hminus), readUnsigned?_of_head false hc]

/-- A sign in front is read as a sign. -/
theorem readNumber?_of_unsigned {negative : Bool} {s : List Char} {number : Number}
    (h : readUnsigned? negative s = some number) :
    readNumber? ((if negative then ['-'] else []) ++ s) = some number := by
  cases negative with
  | true => exact h
  | false =>
      have hsign : ∀ rest, s ≠ '-' :: rest := by
        rintro rest rfl
        cases h
      have hform : readNumber? s = readUnsigned? false s := by
        unfold readNumber?
        split
        · exact absurd rfl (hsign _)
        · rfl
      exact hform.trans h

/-- **A finite double reads back as itself.** -/
theorem readNumber?_text (layout : Layout) (negative : Bool) (rank : Fin rankLimit) :
    readNumber? (text layout (.finite negative rank)) = some (.float (.finite negative rank)) := by
  rw [text_finite]
  exact readNumber?_of_unsigned (readUnsigned?_unsigned layout negative rank)

/-- **An integer reads back as itself.** -/
theorem readNumber?_integer (n : Int) : readNumber? (integer n) = some (.int n) := by
  have hpart : isIntegerPart (natural n.natAbs) = true := by
    by_cases hzero : n.natAbs = 0
    · rw [hzero, natural_of_lt (by decide)]
      rfl
    · have h := isIntegerPart_natural_append (Nat.pos_of_ne_zero hzero) []
      rwa [List.append_nil] at h
  have hread (negative : Bool) :=
    readNumber?_of_unsigned (readUnsigned?_integer negative (natural_isAsciiDigit n.natAbs) hpart)
  rw [digitsValue_natural] at hread
  unfold integer
  split
  · have habs : -(n.natAbs : Int) = n := by omega
    exact (hread true).trans (congrArg (fun m => some (Number.int m)) habs)
  · have habs : (n.natAbs : Int) = n := by omega
    exact (hread false).trans (congrArg (fun m => some (Number.int m)) habs)

/-! ## The characters of a number -/

/-- The characters of which finite numbers are written. -/
def isNumberChar (c : Char) : Bool :=
  isAsciiDigit c || c = '-' || c = '+' || c = '.' || c = 'e'

/-- A digit may stand in a number. -/
theorem isNumberChar_of_digits {s : List Char} (h : ∀ c ∈ s, isAsciiDigit c) :
    ∀ c ∈ s, isNumberChar c := by
  intro c hc
  simp [isNumberChar, h c hc]

theorem integer_isNumberChar (n : Int) : ∀ c ∈ integer n, isNumberChar c := by
  have hnatural := isNumberChar_of_digits (natural_isAsciiDigit n.natAbs)
  unfold integer
  split
  · exact List.forall_mem_cons.mpr ⟨rfl, hnatural⟩
  · exact hnatural

/-- In the positional layout there are digits and a point. -/
theorem positional_isNumberChar {digits : List Char} (h : ∀ c ∈ digits, isAsciiDigit c)
    (exponent : Int) : ∀ c ∈ positional digits exponent, isNumberChar c := by
  have hzeros {n : Nat} : ∀ c ∈ List.replicate n '0', isNumberChar c :=
    isNumberChar_of_digits isAsciiDigit_of_mem_zeros
  have hdigits := isNumberChar_of_digits h
  unfold positional
  dsimp only
  split
  · exact List.forall_mem_append.mpr
      ⟨List.forall_mem_cons.mpr ⟨rfl, List.forall_mem_cons.mpr ⟨rfl, hzeros⟩⟩, hdigits⟩
  · split
    · exact List.forall_mem_append.mpr
        ⟨List.forall_mem_append.mpr ⟨hdigits, hzeros⟩, List.all_eq_true.mp rfl⟩
    · exact List.forall_mem_append.mpr ⟨fun c hc => hdigits c (List.mem_of_mem_take hc),
        List.forall_mem_cons.mpr ⟨rfl, fun c hc => hdigits c (List.mem_of_mem_drop hc)⟩⟩

/-- In the other layout there are an exponent and its sign, too. -/
theorem scientific_isNumberChar (layout : Layout) {digits : List Char}
    (h : ∀ c ∈ digits, isAsciiDigit c) (exponent : Int) :
    ∀ c ∈ scientific layout digits exponent, isNumberChar c := by
  have hdigits := isNumberChar_of_digits h
  have hsign : isNumberChar (exponentSign exponent) := by
    unfold exponentSign
    split <;> rfl
  have hexponent := isNumberChar_of_digits
    (padded_isAsciiDigit layout.exponentWidth exponent.natAbs)
  unfold scientific
  refine List.forall_mem_append.mpr
    ⟨?_, List.forall_mem_cons.mpr ⟨rfl, List.forall_mem_cons.mpr ⟨hsign, hexponent⟩⟩⟩
  split
  · exact hdigits
  · exact hdigits
  · obtain ⟨hfirst, hrest⟩ := List.forall_mem_cons.mp hdigits
    exact List.forall_mem_cons.mpr ⟨hfirst, List.forall_mem_cons.mpr ⟨rfl, hrest⟩⟩

/-- The text of a finite number has no other characters. -/
theorem text_isNumberChar (layout : Layout) (negative : Bool) (rank : Fin rankLimit) :
    ∀ c ∈ text layout (.finite negative rank), isNumberChar c := by
  have hunsigned : ∀ c ∈ unsigned layout rank, isNumberChar c := by
    unfold unsigned render
    split
    · exact positional_isNumberChar (by simp [isAsciiDigit]) 0
    · dsimp only
      split
      · exact positional_isNumberChar (natural_isAsciiDigit _) _
      · exact scientific_isNumberChar layout (natural_isAsciiDigit _) _
  rw [text_finite]
  cases negative with
  | true => exact List.forall_mem_cons.mpr ⟨rfl, hunsigned⟩
  | false => exact hunsigned

end ReAct.Decimal
