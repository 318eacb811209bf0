import ReAct.Decimal.Shortest

/-!
# Decimals and the doubles nearest to them

A double is the nearest one to its own value (`nearestRank_of_eq`), however that value is written as
a quotient.  So the exact decimal expansion of a double reads back as that double, and with it the
shortest decimal does (`shortest_toDouble`).  Zeros at the end of a decimal's digits may be moved
into its exponent (`ofDecimal_mul_pow`), and its sign goes along (`ofDecimal_negative`): that is all
that a written form changes of a decimal.
-/

namespace ReAct.Double

theorem two_pow_pos (n : Nat) : 0 < Nat.pow 2 n :=
  Nat.pow_pos (by decide)

theorem ten_pow_pos (n : Nat) : 0 < Nat.pow 10 n :=
  Nat.pow_pos (by decide)

theorem ten_pow_add (m n : Nat) : Nat.pow 10 (m + n) = Nat.pow 10 m * Nat.pow 10 n :=
  Nat.pow_add 10 m n

/-! ## Quotients -/

theorem roundQuotient_mul (q : Nat) {den : Nat} (hden : 0 < den) :
    roundQuotient (q * den) den = q := by
  unfold roundQuotient
  dsimp only
  rw [Nat.mul_div_cancel q hden, Nat.mul_mod_left, if_pos (by omega)]

/-- A common factor makes no difference to a rounded quotient. -/
theorem roundQuotient_mul_right (num den : Nat) {c : Nat} (hc : 0 < c) :
    roundQuotient (num * c) (den * c) = roundQuotient num den := by
  have hlt (a b : Nat) : a * c < b * c ↔ a < b := Nat.mul_lt_mul_right hc
  unfold roundQuotient
  dsimp only
  rw [Nat.mul_div_mul_right num den hc, Nat.mul_mod_mul_right, ← Nat.mul_assoc]
  simp only [hlt, gt_iff_lt]

/-- Nor does it to the rank that is nearest to a quotient. -/
theorem nearestRank_mul_right (num den : Nat) {c : Nat} (hc : 0 < c) :
    nearestRank (num * c) (den * c) = nearestRank num den := by
  unfold nearestRank
  dsimp only
  rw [Nat.mul_right_comm num c, Nat.mul_div_mul_right _ den hc, Nat.mul_right_comm den c,
    roundQuotient_mul_right _ _ hc]

/-! ## Ranks -/

/-- Below the normal numbers, the ranks are the numbers themselves. -/
theorem units_of_lt {rank : Nat} (h : rank < Nat.pow 2 52) : units rank = rank := by
  rw [units, mantissa, if_pos h, binaryPlaces, Nat.div_eq_of_lt h]
  exact Nat.mul_one rank

theorem units_of_le {rank : Nat} (h : Nat.pow 2 52 ≤ rank) :
    units rank = (Nat.pow 2 52 + rank % Nat.pow 2 52) * Nat.pow 2 (rank / Nat.pow 2 52 - 1) := by
  rw [units, mantissa, if_neg (Nat.not_lt.mpr h), binaryPlaces]

/-- A normal number has the length that its exponent says. -/
theorem log2_units {rank : Nat} (h : Nat.pow 2 52 ≤ rank) :
    Nat.log2 (units rank) = 52 + (rank / Nat.pow 2 52 - 1) := by
  have hmod : rank % Nat.pow 2 52 < Nat.pow 2 52 := Nat.mod_lt _ (by decide)
  rw [units_of_le h]
  generalize rank / Nat.pow 2 52 - 1 = places
  generalize rank % Nat.pow 2 52 = low at hmod ⊢
  have hpos : 0 < Nat.pow 2 places := two_pow_pos places
  have hne : (Nat.pow 2 52 + low) * Nat.pow 2 places ≠ 0 :=
    Nat.ne_of_gt (Nat.mul_pos (Nat.add_pos_left (by decide) low) hpos)
  have hfrom : Nat.pow 2 (52 + places) = Nat.pow 2 52 * Nat.pow 2 places :=
    Nat.pow_add 2 52 places
  have hbelow : Nat.pow 2 (52 + places + 1) = (Nat.pow 2 52 + Nat.pow 2 52) * Nat.pow 2 places := by
    have hsucc : Nat.pow 2 (52 + places + 1) = Nat.pow 2 (52 + places) * 2 := rfl
    rw [hsucc, hfrom, Nat.mul_two, Nat.add_mul]
  refine (Nat.log2_eq_iff hne).mpr ⟨?_, ?_⟩
  · exact Nat.le_trans (Nat.le_of_eq hfrom) (Nat.mul_le_mul_right _ (Nat.le_add_right _ low))
  · refine Nat.lt_of_lt_of_eq ?_ hbelow.symm
    exact (Nat.mul_lt_mul_right hpos).mpr (Nat.add_lt_add_left hmod _)

/-- **A double is the nearest one to its own value.** -/
theorem nearestRank_of_eq {num den rank : Nat} (hden : 0 < den)
    (h : num * Nat.pow 2 unitScale = units rank * den) : nearestRank num den = rank := by
  unfold nearestRank
  dsimp only
  rw [h, Nat.mul_div_cancel _ hden]
  -- Below the first power of two the units are the rank itself; from there on the places that are
  -- cut off are those that the mantissa was shifted by.
  by_cases hsmall : rank < Nat.pow 2 52
  · have hlog : Nat.log2 rank - 52 = 0 := by
      by_cases hzero : rank = 0
      · rw [hzero]
        rfl
      · have hlt : Nat.log2 rank < 52 := (Nat.log2_lt hzero).mpr hsmall
        omega
    rw [units_of_lt hsmall, hlog, Nat.zero_mul, Nat.zero_add]
    have hone : den * Nat.pow 2 0 = den := Nat.mul_one den
    rw [hone, roundQuotient_mul rank hden]
  · have hlarge : Nat.pow 2 52 ≤ rank := Nat.not_lt.mp hsmall
    have hpos : 0 < den * Nat.pow 2 (rank / Nat.pow 2 52 - 1) :=
      Nat.mul_pos hden (two_pow_pos _)
    rw [log2_units hlarge, Nat.add_sub_cancel_left, units_of_le hlarge, Nat.mul_assoc,
      Nat.mul_comm (Nat.pow 2 _) den, roundQuotient_mul _ hpos]
    have hsplit := Nat.div_add_mod rank (Nat.pow 2 52)
    have hone : 1 ≤ rank / Nat.pow 2 52 := (Nat.one_le_div_iff (by decide)).mpr hlarge
    rw [Nat.sub_mul, Nat.one_mul, ← Nat.add_assoc, Nat.sub_add_cancel, Nat.mul_comm, hsplit]
    exact Nat.le_mul_of_pos_left _ hone

theorem units_pos {rank : Nat} (h : 0 < rank) : 0 < units rank := by
  by_cases hsmall : rank < Nat.pow 2 52
  · rw [units_of_lt hsmall]
    exact h
  · rw [units_of_le (Nat.not_lt.mp hsmall)]
    exact Nat.mul_pos (Nat.add_pos_left (by decide) _) (two_pow_pos _)

/-- What the exponent of a rank says is an upper bound on the number. -/
theorem units_le {rank places : Nat} (h : rank / Nat.pow 2 52 ≤ places + 1) :
    units rank ≤ Nat.pow 2 53 * Nat.pow 2 places := by
  by_cases hsmall : rank < Nat.pow 2 52
  · rw [units_of_lt hsmall]
    have hmantissa : rank ≤ Nat.pow 2 53 :=
      Nat.le_trans (Nat.le_of_lt hsmall) (Nat.pow_le_pow_right (by decide) (by decide))
    exact Nat.le_trans hmantissa (Nat.le_mul_of_pos_right _ (two_pow_pos places))
  · rw [units_of_le (Nat.not_lt.mp hsmall)]
    have hmod : rank % Nat.pow 2 52 < Nat.pow 2 52 := Nat.mod_lt _ (by decide)
    have hmantissa : Nat.pow 2 52 + rank % Nat.pow 2 52 ≤ Nat.pow 2 53 :=
      Nat.le_of_lt (Nat.add_lt_add_left hmod _)
    have hplaces : Nat.pow 2 (rank / Nat.pow 2 52 - 1) ≤ Nat.pow 2 places :=
      Nat.pow_le_pow_right (by decide) (by omega)
    exact Nat.mul_le_mul hmantissa hplaces

/-! ## Decimals -/

theorem decimalLength_of_ne {n : Nat} (h : n ≠ 0) :
    decimalLength n = decimalLength (n / 10) + 1 := by
  rw [decimalLength, if_neg h]

theorem decimalLength_mul_ten {n : Nat} (h : n ≠ 0) :
    decimalLength (n * 10) = decimalLength n + 1 := by
  rw [decimalLength_of_ne (Nat.mul_ne_zero h (by decide)), Nat.mul_div_cancel n (by decide)]

/-- A zero behind a number makes it one digit longer. -/
theorem decimalLength_mul_pow {n : Nat} (h : n ≠ 0) (k : Nat) :
    decimalLength (n * Nat.pow 10 k) = decimalLength n + k := by
  induction k with
  | zero => exact congrArg decimalLength (Nat.mul_one n)
  | succ k ih =>
      have hsucc : n * Nat.pow 10 (k + 1) = n * Nat.pow 10 k * 10 := (Nat.mul_assoc _ _ _).symm
      have hne : n * Nat.pow 10 k ≠ 0 := Nat.mul_ne_zero h (Nat.ne_of_gt (ten_pow_pos k))
      rw [hsucc, decimalLength_mul_ten hne, ih]
      rfl

/-- A number below a power of ten has no more digits than the exponent, by induction on it. -/
theorem decimalLength_le {k : Nat} : ∀ {n : Nat}, n < Nat.pow 10 k → decimalLength n ≤ k := by
  induction k with
  | zero =>
      intro n h
      have hzero : n = 0 := Nat.lt_one_iff.mp h
      rw [hzero, decimalLength]
      exact Nat.le_refl 0
  | succ k ih =>
      intro n h
      by_cases hzero : n = 0
      · rw [hzero, decimalLength]
        exact Nat.zero_le _
      · rw [decimalLength_of_ne hzero]
        exact Nat.succ_le_succ (ih ((Nat.div_lt_iff_lt_mul (by decide)).mpr h))

/-- A number from a power of ten on has more, by induction on the exponent. -/
theorem lt_decimalLength {k : Nat} : ∀ {n : Nat}, Nat.pow 10 k ≤ n → k < decimalLength n := by
  induction k with
  | zero =>
      intro n h
      rw [decimalLength_of_ne (Nat.ne_of_gt h)]
      exact Nat.zero_lt_succ _
  | succ k ih =>
      intro n h
      have hpos := ten_pow_pos (k + 1)
      rw [decimalLength_of_ne (by omega)]
      exact Nat.succ_lt_succ (ih ((Nat.le_div_iff_mul_le (by decide)).mpr h))

/-- What `ofDecimal` does with a decimal of a middling magnitude. -/
theorem ofDecimal_eq {digits : Nat} {exponent : Int} (negative : Bool) (h : digits ≠ 0)
    (hmax : (decimalLength digits : Int) + exponent ≤ 400)
    (hmin : -400 ≤ (decimalLength digits : Int) + exponent) :
    ofDecimal negative digits exponent =
      ofQuotient negative (digits * Nat.pow 10 exponent.toNat) (Nat.pow 10 (-exponent).toNat) := by
  unfold ofDecimal
  dsimp only
  rw [if_neg h, if_neg (by omega), if_neg (by omega)]
  split
  · rename_i hexponent
    have hzero : (-exponent).toNat = 0 := by omega
    rw [hzero]
  · rename_i hexponent
    have hzero : exponent.toNat = 0 := by omega
    have hone : digits * Nat.pow 10 0 = digits := Nat.mul_one digits
    rw [hzero, hone]

/-- Zeros at the end of the digits are powers of ten. -/
theorem ofDecimal_mul_pow (negative : Bool) {digits : Nat} (h : digits ≠ 0) (k : Nat)
    (exponent : Int) :
    ofDecimal negative (digits * Nat.pow 10 k) exponent =
      ofDecimal negative digits (exponent + k) := by
  have hne : digits * Nat.pow 10 k ≠ 0 :=
    Nat.mul_ne_zero h (Nat.ne_of_gt (ten_pow_pos k))
  have hmagnitude : (decimalLength (digits * Nat.pow 10 k) : Int) + exponent =
      decimalLength digits + (exponent + k) := by
    rw [decimalLength_mul_pow h]
    omega
  by_cases hmax : (decimalLength digits : Int) + (exponent + k) > 400
  · simp only [ofDecimal, if_neg hne, if_neg h, hmagnitude, if_pos hmax]
  by_cases hmin : (decimalLength digits : Int) + (exponent + k) < -400
  · simp only [ofDecimal, if_neg hne, if_neg h, hmagnitude, if_neg hmax, if_pos hmin]
  rw [ofDecimal_eq negative hne (by omega) (by omega),
    ofDecimal_eq negative h (by omega) (by omega)]
  -- Both quotients are brought to one denominator.
  have hsum : k + exponent.toNat + (-(exponent + k)).toNat =
      (exponent + k).toNat + (-exponent).toNat := by omega
  have hnum : digits * Nat.pow 10 k * Nat.pow 10 exponent.toNat *
      Nat.pow 10 (-(exponent + k)).toNat =
        digits * Nat.pow 10 (exponent + k).toNat * Nat.pow 10 (-exponent).toNat := by
    rw [Nat.mul_assoc, Nat.mul_assoc, ← ten_pow_add, ← ten_pow_add, ← Nat.add_assoc, hsum,
      ten_pow_add, Nat.mul_assoc]
  unfold ofQuotient
  rw [← nearestRank_mul_right _ _ (ten_pow_pos (-(exponent + k)).toNat), hnum,
    Nat.mul_comm (Nat.pow 10 _), nearestRank_mul_right _ _ (ten_pow_pos (-exponent).toNat)]

/-- A finite number comes from one rank only. -/
theorem ofRank_inj {rank : Fin rankLimit} {n : Nat} (h : ofRank false n = .finite false rank) :
    n = rank.val := by
  unfold ofRank at h
  split at h
  · cases h
    rfl
  · cases h

theorem ofRank_val (negative : Bool) (rank : Fin rankLimit) :
    ofRank negative rank.val = .finite negative rank := by
  rw [ofRank, dif_pos rank.isLt]

/-- The sign of a decimal is that of its double. -/
theorem ofDecimal_negative {digits : Nat} {exponent : Int} {rank : Fin rankLimit}
    (negative : Bool) (h : ofDecimal false digits exponent = .finite false rank) :
    ofDecimal negative digits exponent = .finite negative rank := by
  have hquotient {num den : Nat} (h : ofQuotient false num den = .finite false rank) :
      ofQuotient negative num den = .finite negative rank := by
    rw [ofQuotient, ofRank_inj h, ofRank_val]
  unfold ofDecimal at h ⊢
  dsimp only at h ⊢
  split
  · rename_i hzero
    rw [if_pos hzero] at h
    cases h
    rfl
  rename_i hne
  rw [if_neg hne] at h
  split
  · rename_i hmax
    rw [if_pos hmax] at h
    cases h
  rename_i hmax
  rw [if_neg hmax] at h
  split
  · rename_i hmin
    rw [if_pos hmin] at h
    cases h
    rfl
  rename_i hmin
  rw [if_neg hmin] at h
  split
  · rename_i hexponent
    rw [if_pos hexponent] at h
    exact hquotient h
  · rename_i hexponent
    rw [if_neg hexponent] at h
    exact hquotient h

/-! ## The shortest decimal -/

/-- The value of a positive double lies between `10 ^ (-401)` and `10 ^ 400`. -/
theorem exists_bounds : ∃ places low high : Nat, 2046 ≤ places + 1 ∧ 673 ≤ low ∧ high ≤ 1474 ∧
    Nat.pow 10 low ≤ Nat.pow 5 unitScale ∧
      Nat.pow 2 53 * Nat.pow 2 places * Nat.pow 5 unitScale < Nat.pow 10 high :=
  ⟨2045, 673, 1474, by decide +kernel⟩

/-- With enough decimal places, a binary fraction is a decimal one. -/
theorem exact_value (n scale : Nat) :
    n * Nat.pow 5 scale * Nat.pow 10 (-(scale : Int)).toNat * Nat.pow 2 scale =
      n * Nat.pow 10 (- -(scale : Int)).toNat := by
  have hten : Nat.pow 5 scale * Nat.pow 2 scale = Nat.pow 10 scale := (Nat.mul_pow 5 2 scale).symm
  have hzero : (-(scale : Int)).toNat = 0 := by omega
  have hone (m : Nat) : m * Nat.pow 10 0 = m := Nat.mul_one m
  have hneg : (- -(scale : Int)).toNat = scale := by omega
  rw [hzero, hone, hneg, Nat.mul_assoc, hten]

/-- How many digits a product has, for numbers that bound it. -/
theorem decimalLength_bounds {n factor limit low high : Nat} (hpos : 0 < n) (hle : n ≤ limit)
    (hlow : Nat.pow 10 low ≤ factor) (hhigh : limit * factor < Nat.pow 10 high) :
    low < decimalLength (n * factor) ∧ decimalLength (n * factor) ≤ high :=
  ⟨lt_decimalLength (Nat.le_trans hlow (Nat.le_mul_of_pos_left factor hpos)),
    decimalLength_le (Nat.lt_of_le_of_lt (Nat.mul_le_mul_right factor hle) hhigh)⟩

/-- The exact decimal expansion of a double reads back as that double. -/
theorem exactDecimal_toDouble {rank : Fin rankLimit} (hpos : 0 < rank.val) :
    (exactDecimal rank.val).toDouble = .finite false rank := by
  obtain ⟨places, low, high, hplaces, hlow, hhigh, hleast, hgreatest⟩ := exists_bounds
  have hrank : rank.val / Nat.pow 2 52 ≤ 2046 :=
    Nat.le_of_lt_succ ((Nat.div_lt_iff_lt_mul (by decide)).mpr rank.isLt)
  obtain ⟨habove, hbelow⟩ := decimalLength_bounds (units_pos hpos)
    (units_le (Nat.le_trans hrank hplaces)) hleast hgreatest
  have hvalue := exact_value (units rank.val) unitScale
  have hscale : (unitScale : Int) = 1074 := rfl
  -- The bounds keep the decimal away from the exponents at which it would be rounded to zero or to
  -- infinity, so that its quotient is taken.
  unfold exactDecimal Decimal.toDouble
  dsimp only
  generalize units rank.val * Nat.pow 5 unitScale = digits at habove hbelow hvalue ⊢
  have hne : digits ≠ 0 := by
    rintro rfl
    rw [decimalLength] at habove
    exact absurd habove (Nat.not_lt_zero _)
  rw [ofDecimal_eq false hne (by omega) (by omega), ofQuotient,
    nearestRank_of_eq (ten_pow_pos _) hvalue, ofRank_val]

/-- A candidate that is taken reads as the number. -/
theorem Decimal.toDouble_of_firstOf {x : Double} {candidates : List Decimal} {d : Decimal}
    (h : Decimal.firstOf x candidates = some d) : d.toDouble = x := by
  have hbeq := List.find?_some h
  exact eq_of_beq hbeq

/-- **The shortest decimal of a double reads back as that double.** -/
theorem shortest_toDouble {rank : Fin rankLimit} (hpos : 0 < rank.val) :
    (shortest rank).toDouble = .finite false rank := by
  unfold shortest
  cases hfirst : Decimal.firstOf (.finite false rank) (candidates rank.val) with
  | some d => exact Decimal.toDouble_of_firstOf hfirst
  | none => exact exactDecimal_toDouble hpos

/-- A number that is not zero has a shortest decimal that is not zero. -/
theorem shortest_digits_ne_zero {rank : Fin rankLimit} (hpos : 0 < rank.val) :
    (shortest rank).digits ≠ 0 := by
  intro hzero
  have hdouble := shortest_toDouble hpos
  rw [Decimal.toDouble, ofDecimal, if_pos hzero] at hdouble
  injection hdouble with _ hrank
  rw [← hrank] at hpos
  exact absurd hpos (Nat.lt_irrefl 0)

end ReAct.Double
