import ReAct.Moment.Basic
import ReAct.Proofs.Decimal.Layout

/-!
# Moments as ISO texts

A moment of the calendar in universal time is read back from its ISO text (`check_iso`), its
microseconds included.

## Main Definitions

* `Moment.IsUniversal`: the moments that a clock in universal time can show
-/

namespace ReAct.Moment

open Text

/-- A moment of the calendar, with a time of the day, in universal time. -/
structure IsUniversal (m : Moment) : Prop where
  year : 1 ≤ m.year ∧ m.year ≤ 9999
  month : 1 ≤ m.month ∧ m.month ≤ 12
  day : 1 ≤ m.day ∧ m.day ≤ monthLength m.year m.month
  hour : m.hour < 24
  minute : m.minute < 60
  second : m.second < 60
  microsecond : m.microsecond < 1000000
  offset : m.offset = some 0

/-! ## Parts -/

/-- A number that fits into its width is read back. -/
theorem readFixed?_padded {width n : Nat} (hpos : 0 < width) (h : n < Nat.pow 10 width)
    (rest : List Char) : readFixed? width (padded '0' width n ++ rest) = some (n, rest) := by
  have hlength := padded_length '0' hpos h
  unfold readFixed?
  rw [List.length_append, hlength, if_neg (by omega), List.take_left' hlength,
    List.drop_left' hlength, asciiNatural?_padded]
  rfl

theorem readFixed?_two (n : Nat) (h : n < 100) (rest : List Char) :
    readFixed? 2 (padded '0' 2 n ++ rest) = some (n, rest) :=
  readFixed?_padded (by decide) h rest

theorem readChar?_self (c : Char) (rest : List Char) : readChar? [c] (c :: rest) = some rest := by
  simp [readChar?]

/-- No month has more than 31 days. -/
theorem monthLength_le (year month : Nat) : monthLength year month ≤ 31 := by
  unfold monthLength
  repeat' split
  all_goals omega

/-- The date of a moment as its ISO text has it. -/
def isoDate (m : Moment) : List Char :=
  padded '0' 4 m.year ++ '-' :: (padded '0' 2 m.month ++ '-' :: padded '0' 2 m.day)

/-- The seconds of a moment and their fraction as its ISO text has them. -/
def isoSeconds (m : Moment) : List Char :=
  ':' :: (padded '0' 2 m.second ++
    (if m.microsecond = 0 then [] else '.' :: padded '0' 6 m.microsecond))

theorem iso_toList (m : Moment) :
    m.iso.toList = m.isoDate ++ 'T' :: (padded '0' 2 m.hour ++ ':' :: (padded '0' 2 m.minute ++
      (m.isoSeconds ++ ['Z']))) := by
  simp [iso, isoDate, isoSeconds]

variable {m : Moment}

/-- The date is read back. -/
theorem readDate?_isoDate (h : m.IsUniversal) (rest : List Char) :
    readDate? (m.isoDate ++ rest) = some ((m.year, m.month, m.day), rest) := by
  obtain ⟨hyear, hmonth, hday, -, -, -, -, -⟩ := h
  have hlength := monthLength_le m.year m.month
  have hlt : m.year < Nat.pow 10 4 := Nat.lt_of_le_of_lt hyear.2 (by decide)
  have hyear4 (rest : List Char) := readFixed?_padded (by decide) hlt rest
  have hmonth2 (rest : List Char) := readFixed?_two m.month (by omega) rest
  have hday2 (rest : List Char) := readFixed?_two m.day (by omega) rest
  unfold readDate? isoDate
  simp only [List.append_assoc, List.cons_append, hyear4, hmonth2, hday2, readChar?_self,
    Option.bind_eq_bind, Option.bind_some]
  rw [if_pos ⟨hyear.1, hmonth.1, hmonth.2, hday.1, hday.2⟩]

/-- The fraction of a second is six digits. -/
theorem readMicroseconds (h : m.IsUniversal) :
    asciiNatural? ((padded '0' 6 m.microsecond ++ List.replicate 6 '0').take 6) =
      some m.microsecond := by
  have hlength := padded_length '0' (by decide : 0 < 6) h.microsecond
  rw [List.take_left' hlength, asciiNatural?_padded]

/-- So are the seconds, with a fraction or without one. -/
theorem readSeconds?_isoSeconds (h : m.IsUniversal) :
    readSeconds? (m.isoSeconds ++ ['Z']) = some ((m.second, m.microsecond), ['Z']) := by
  have hsecond := h.second
  have hsecond2 (rest : List Char) := readFixed?_two m.second (by omega) rest
  unfold readSeconds? isoSeconds
  rw [List.cons_append, readChar?_self]
  dsimp only
  rw [List.append_assoc, hsecond2]
  by_cases hzero : m.microsecond = 0
  · rw [if_pos hzero, hzero]
    rfl
  · have hspan : Decimal.spanDigits (padded '0' 6 m.microsecond ++ ['Z']) =
        (padded '0' 6 m.microsecond, ['Z']) :=
      Decimal.spanDigits_append (padded_isAsciiDigit 6 m.microsecond) (by simp [isAsciiDigit])
    have hne : (padded '0' 6 m.microsecond).isEmpty = false := by
      simpa using padded_ne_nil '0' 6 m.microsecond
    have hpoint : readChar? ['.', ','] ('.' :: padded '0' 6 m.microsecond ++ ['Z']) =
        some (padded '0' 6 m.microsecond ++ ['Z']) := rfl
    rw [if_neg hzero]
    simp only [Option.bind_eq_bind, Option.bind_some, hpoint, hspan, readMicroseconds h, hne]
    rfl

/-- A moment is read back from its parts. -/
theorem readIso?_iso (h : m.IsUniversal) : readIso? m.iso.toList = some m := by
  have hhour := h.hour
  have hminute := h.minute
  have hoffset := h.offset
  have hhour2 (rest : List Char) := readFixed?_two m.hour (by omega) rest
  have hminute2 (rest : List Char) := readFixed?_two m.minute (by omega) rest
  have hmark (rest : List Char) : readChar? ['T', 't', ' ', '_'] ('T' :: rest) = some rest := rfl
  have hzone : readOffset? ['Z'] = some m.offset := hoffset.symm ▸ rfl
  unfold readIso?
  simp only [iso_toList, readDate?_isoDate h, List.isEmpty_cons, hmark, hhour2, hminute2,
    readChar?_self, readSeconds?_isoSeconds h, hzone, Option.bind_eq_bind, Option.bind_some,
    Bool.false_eq_true, if_false]
  rw [if_pos ⟨hhour, hminute, h.second⟩]

/-- **A moment in universal time is read back from its ISO text.** -/
theorem check_iso (h : m.IsUniversal) : Moment.check (.str m.iso) = .valid m := by
  rw [check, readIso?_iso h]

end ReAct.Moment
