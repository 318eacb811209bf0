import ReAct.Record.Check

/-!
# Moments

A date and time of the Gregorian calendar with an optional distance from universal time. A moment is
read from an ISO text, of which the time may be missing, or from a number of seconds since 1970;
numbers too large for seconds count milliseconds.
-/

namespace ReAct

open ReAct.Text

/-- A date and time; the offset is in seconds east of universal time. -/
structure Moment where
  year : Nat
  month : Nat
  day : Nat
  hour : Nat
  minute : Nat
  second : Nat
  microsecond : Nat
  offset : Option Int
  deriving DecidableEq

namespace Moment

/-- Whether a year has a leap day. -/
def isLeap (year : Nat) : Bool :=
  year % 4 = 0 && (year % 100 ≠ 0 || year % 400 = 0)

/-- The length of a month. -/
def monthLength (year month : Nat) : Nat :=
  if month = 2 then if isLeap year then 29 else 28
  else if month = 4 ∨ month = 6 ∨ month = 9 ∨ month = 11 then 30
  else 31

/-- The number of days before a year, counted from the first year. -/
def daysBeforeYear (year : Nat) : Nat :=
  let y := year - 1
  y * 365 + y / 4 - y / 100 + y / 400

/-- The number of days before a month of its year. -/
def daysBeforeMonth (year month : Nat) : Nat :=
  (List.range (month - 1)).foldl (fun days m => days + monthLength year (m + 1)) 0

/-- The position of a moment's day in its year, from one on. -/
def dayOfYear (m : Moment) : Nat :=
  daysBeforeMonth m.year m.month + m.day

/-- The number of a moment's day, counted from the first day of the first year, which is one. -/
def dayNumber (m : Moment) : Nat :=
  daysBeforeYear m.year + m.dayOfYear

/-- The day of the week, Sunday being zero. -/
def weekday (m : Moment) : Nat :=
  m.dayNumber % 7

/-- The number of the first day of 1970. -/
def epochDay : Nat := 719163

/-- The seconds since 1970, in the moment's own time. -/
def epochSeconds (m : Moment) : Int :=
  ((m.dayNumber : Int) - epochDay) * 86400 + (m.hour * 3600 + m.minute * 60 + m.second : Nat)

/-- The month and day of a position in a year, searched from a given month on. -/
def monthDay (year : Nat) : (left : Nat) → (month position : Nat) → Nat × Nat
  | 0, month, position => (month, position)
  | left + 1, month, position =>
    if position ≤ monthLength year month then (month, position)
    else monthDay year left (month + 1) (position - monthLength year month)

/-- The year that holds a day, searched downwards from a year that does not begin after it. -/
def yearOf (day : Nat) : (year : Nat) → Nat
  | 0 => 0
  | year + 1 => if daysBeforeYear (year + 1) < day then year + 1 else yearOf day year

/-- The moment that lies `n` seconds after the beginning of 1970 in universal time. -/
def ofEpoch (n : Int) : Moment :=
  let day := (n.fdiv 86400 + epochDay).toNat
  let rest := (n.fmod 86400).toNat
  let year := yearOf day (day / 365 + 1)
  let (month, dayOfMonth) := monthDay year 11 1 (day - daysBeforeYear year)
  ⟨year, month, dayOfMonth, rest / 3600, rest / 60 % 60, rest % 60, 0, some 0⟩

/-- Reads exactly `width` ASCII digits. -/
def readFixed? (width : Nat) (s : List Char) : Option (Nat × List Char) :=
  if s.length < width then none
  else (asciiNatural? (s.take width)).map fun n => (n, s.drop width)

/-- Reads a given character. -/
def readChar? (cs : List Char) : List Char → Option (List Char)
  | c :: rest => if cs.contains c then some rest else none
  | [] => none

/-- Reads a year, month and day. -/
def readDate? (s : List Char) : Option ((Nat × Nat × Nat) × List Char) := do
  let (year, s) ← readFixed? 4 s
  let s ← readChar? ['-'] s
  let (month, s) ← readFixed? 2 s
  let s ← readChar? ['-'] s
  let (day, s) ← readFixed? 2 s
  if 1 ≤ year ∧ 1 ≤ month ∧ month ≤ 12 ∧ 1 ≤ day ∧ day ≤ monthLength year month then
    some ((year, month, day), s)
  else none

/-- Reads the distance from universal time, which must be the whole rest. -/
def readOffset? : List Char → Option (Option Int)
  | [] => some none
  | c :: rest =>
    if c = 'Z' ∨ c = 'z' then if rest.isEmpty then some (some 0) else none
    else if c = '+' ∨ c = '-' then do
      let (hours, rest) ← readFixed? 2 rest
      let rest := (readChar? [':'] rest).getD rest
      let (minutes, rest) ← readFixed? 2 rest
      if rest.isEmpty ∧ hours < 24 ∧ minutes < 60 then
        let seconds : Int := (hours * 3600 + minutes * 60 : Nat)
        some (some (if c = '-' then -seconds else seconds))
      else none
    else none

/-- Reads the seconds and their fraction, if there are any. Digits beyond the sixth are dropped. -/
def readSeconds? (s : List Char) : Option ((Nat × Nat) × List Char) :=
  match readChar? [':'] s with
  | none => some ((0, 0), s)
  | some s => do
    let (second, s) ← readFixed? 2 s
    match readChar? ['.', ','] s with
    | none => some ((second, 0), s)
    | some s =>
      let (fraction, s) := Decimal.spanDigits s
      let micros ← asciiNatural? ((fraction ++ List.replicate 6 '0').take 6)
      if fraction.isEmpty then none else some ((second, micros), s)

/-- Reads a moment from an ISO text. -/
def readIso? (s : List Char) : Option Moment := do
  let ((year, month, day), s) ← readDate? s
  if s.isEmpty then some ⟨year, month, day, 0, 0, 0, 0, none⟩
  else
    let s ← readChar? ['T', 't', ' ', '_'] s
    let (hour, s) ← readFixed? 2 s
    let s ← readChar? [':'] s
    let (minute, s) ← readFixed? 2 s
    let ((second, micros), s) ← readSeconds? s
    let offset ← readOffset? s
    if hour < 24 ∧ minute < 60 ∧ second < 60 then
      some ⟨year, month, day, hour, minute, second, micros, offset⟩
    else none

/-- The moment of a number of seconds, or of milliseconds if it is too large for seconds. -/
def ofNumber? (n : Int) : Option Moment :=
  let seconds := if n.natAbs > 20000000000 then n.fdiv 1000 else n
  if -11676096000 ≤ seconds ∧ seconds ≤ 253402300799 then some (ofEpoch seconds) else none

/-- A moment as a text or a number. -/
def check : Record.Check Moment
  | .str s =>
    match readIso? s.toList with
    | some m => .valid m
    | none =>
      match (Record.decimal? s.toList).bind Double.truncate? |>.bind ofNumber? with
      | some m => .valid m
      | none => .issue .momentText
  | .int n =>
    match ofNumber? n with
    | some m => .valid m
    | none => .issue .momentText
  | .float x =>
    match x.truncate?.bind ofNumber? with
    | some m => .valid m
    | none => .issue .momentText
  | _ => .issue .moment

/-- The ISO text of a moment in universal time. -/
def iso (m : Moment) : String :=
  String.ofList
    (padded '0' 4 m.year ++ '-' :: padded '0' 2 m.month ++ '-' :: padded '0' 2 m.day ++
      'T' :: padded '0' 2 m.hour ++ ':' :: padded '0' 2 m.minute ++ ':' :: padded '0' 2 m.second ++
      (if m.microsecond = 0 then [] else '.' :: padded '0' 6 m.microsecond) ++ ['Z'])

end Moment

end ReAct
