import ReAct.Moment.Basic

/-!
# Writing moments by a pattern

A pattern is a text with directives: a percent sign, flags for the filling and the case, a least
width, a modifier, and a letter. Names and composite forms are those of the neutral locale. What
starts with a percent sign and is no directive stands for itself.

## Main definitions

* `Directive.read`: the flags, the width and the modifier of a directive.
* `part?`: what a letter stands for.
* `format`: a moment written by a pattern.
-/

namespace ReAct.Moment

open ReAct.Text

/-- The names of the days, from Sunday on. -/
def dayNames : List String :=
  ["Sunday", "Monday", "Tuesday", "Wednesday", "Thursday", "Friday", "Saturday"]

/-- The names of the months. -/
def monthNames : List String :=
  ["January", "February", "March", "April", "May", "June", "July", "August", "September",
    "October", "November", "December"]

/-- The name of a moment's day. -/
def dayName (m : Moment) : List Char :=
  ((dayNames[m.weekday]?).getD "").toList

/-- The name of a moment's month. -/
def monthName (m : Moment) : List Char :=
  ((monthNames[m.month - 1]?).getD "").toList

/-- The number of the week, weeks beginning on the weekday `start`; days before the first such day
are in week zero. -/
def weekOf (start : Nat) (m : Moment) : Nat :=
  (m.dayOfYear + 6 - (m.weekday + 7 - start) % 7) / 7

/-- The year and week of the calendar in which weeks begin on Monday and belong to the year that
holds their Thursday. -/
def isoWeek (m : Moment) : Nat × Nat :=
  let fromMonday := (m.weekday + 6) % 7
  let thursday := m.dayOfYear + 3 - fromMonday
  let yearLength (year : Nat) : Nat := if isLeap year then 366 else 365
  if m.dayOfYear + 3 < fromMonday + 1 then
    let length := yearLength (m.year - 1)
    (m.year - 1, (length + m.dayOfYear + 3 - fromMonday - 1) / 7 + 1)
  else if yearLength m.year < thursday then (m.year + 1, 1)
  else (m.year, (thursday - 1) / 7 + 1)

/-- The hour of a twelve-hour clock. -/
def clockHour (m : Moment) : Nat :=
  if m.hour % 12 = 0 then 12 else m.hour % 12

/-- The distance from universal time as a sign, hours and minutes. -/
def offsetText (m : Moment) : List Char :=
  match m.offset with
  | none => []
  | some seconds =>
    let minutes := seconds.natAbs / 60
    (if seconds < 0 then '-' else '+') :: padded '0' 2 (minutes / 60) ++
      padded '0' 2 (minutes % 60)

/-- The name of the time zone. -/
def zoneName (m : Moment) : List Char :=
  match m.offset with
  | none => []
  | some seconds =>
    if seconds = 0 then ['U', 'T', 'C'] else ['U', 'T', 'C'] ++ offsetText m

/-- What a directive puts in front of what it stands for, up to a width. -/
inductive Filling where
  /-- The letter decides. -/
  | own
  | blanks
  | zeros
  /-- Nothing, as far as the directive gives no width. -/
  | none
  deriving DecidableEq

/-- What a directive says between its percent sign and its letter. -/
structure Directive where
  filling : Filling := .own
  isUpper : Bool := false
  isSwapped : Bool := false
  width : Nat := 0
  modifier : Option Char := none
  deriving DecidableEq

namespace Directive

/-- Reads the flags of a directive; of two for the filling the later one counts. -/
def readFlags (d : Directive) : List Char → Directive × List Char
  | [] => (d, [])
  | c :: rest =>
    if c = '_' then readFlags { d with filling := .blanks } rest
    else if c = '0' then readFlags { d with filling := .zeros } rest
    else if c = '-' then readFlags { d with filling := .none } rest
    else if c = '^' then readFlags { d with isUpper := true } rest
    else if c = '#' then readFlags { d with isSwapped := true } rest
    else (d, c :: rest)

/-- Reads what precedes the letter of a directive. -/
def read (s : List Char) : Directive × List Char :=
  let (d, rest) := readFlags {} s
  let (digits, rest) := rest.span fun c => '0' ≤ c && c ≤ '9'
  let d := { d with width := (asciiNatural? digits).getD 0 }
  match rest with
  | c :: rest => if c = 'E' ∨ c = 'O' then ({ d with modifier := some c }, rest) else (d, c :: rest)
  | [] => (d, [])

/-- Whether a letter may follow the modifier. -/
def admits (d : Directive) (letter : Char) : Bool :=
  match d.modifier with
  | none => true
  | some c =>
    if c = 'E' then "cCnpPrRstTuxXyYzZ%".toList.contains letter
    else !"aAcDFxXY".toList.contains letter

/-- A number as a directive shows it, where a letter asks for a filling and a width. -/
def number (d : Directive) (own : Char) (width n : Nat) : List Char :=
  match d.filling with
  | .own => padded own (max d.width width) n
  | .blanks => padded ' ' (max d.width width) n
  | .zeros => padded '0' (max d.width width) n
  | .none => padded ' ' d.width n

/-- A text in the width of a directive. -/
def fill (d : Directive) (s : List Char) : List Char :=
  List.replicate (d.width - s.length) (if d.filling = .zeros then '0' else ' ') ++ s

/-- A text as a directive shows it. -/
def text (d : Directive) (s : List Char) : List Char :=
  d.fill (if d.isUpper then s.map Char.toUpper else s)

end Directive

/-- What a letter stands for. -/
inductive Part where
  | number (filling : Char) (width n : Nat)
  | name (s : List Char)
  /-- The half of the day, whose case is swapped to the lower one. -/
  | half (s : List Char)
  /-- A text without cases of its own. -/
  | mark (s : List Char)
  | composite (pattern : List Char)

/-- What a letter stands for, if it is one of the known ones. -/
def part? (m : Moment) (c : Char) : Option Part :=
  match c with
  | 'Y' => some (.number '0' 1 m.year)
  | 'C' => some (.number '0' 2 (m.year / 100))
  | 'y' => some (.number '0' 2 (m.year % 100))
  | 'm' => some (.number '0' 2 m.month)
  | 'd' => some (.number '0' 2 m.day)
  | 'e' => some (.number ' ' 2 m.day)
  | 'H' => some (.number '0' 2 m.hour)
  | 'k' => some (.number ' ' 2 m.hour)
  | 'I' => some (.number '0' 2 m.clockHour)
  | 'l' => some (.number ' ' 2 m.clockHour)
  | 'M' => some (.number '0' 2 m.minute)
  | 'S' => some (.number '0' 2 m.second)
  | 'j' => some (.number '0' 3 m.dayOfYear)
  | 'u' => some (.number '0' 1 (if m.weekday = 0 then 7 else m.weekday))
  | 'w' => some (.number '0' 1 m.weekday)
  | 'U' => some (.number '0' 2 (m.weekOf 0))
  | 'W' => some (.number '0' 2 (m.weekOf 1))
  | 'V' => some (.number '0' 2 m.isoWeek.2)
  | 'G' => some (.number '0' 1 m.isoWeek.1)
  | 'g' => some (.number '0' 2 (m.isoWeek.1 % 100))
  | 'A' => some (.name m.dayName)
  | 'a' => some (.name (m.dayName.take 3))
  | 'B' => some (.name m.monthName)
  | 'b' => some (.name (m.monthName.take 3))
  | 'h' => some (.name (m.monthName.take 3))
  | 'p' => some (.half (if m.hour < 12 then ['A', 'M'] else ['P', 'M']))
  | 'P' => some (.mark (if m.hour < 12 then ['a', 'm'] else ['p', 'm']))
  | 's' => some (.mark (integer m.epochSeconds))
  | 'n' => some (.mark ['\n'])
  | 't' => some (.mark ['\t'])
  | '%' => some (.mark ['%'])
  | 'D' => some (.composite "%m/%d/%y".toList)
  | 'x' => some (.composite "%m/%d/%y".toList)
  | 'F' => some (.composite "%Y-%m-%d".toList)
  | 'T' => some (.composite "%H:%M:%S".toList)
  | 'X' => some (.composite "%H:%M:%S".toList)
  | 'R' => some (.composite "%H:%M".toList)
  | 'r' => some (.composite "%I:%M:%S %p".toList)
  | 'c' => some (.composite "%a %b %e %H:%M:%S %Y".toList)
  | _ => none

/-- The text of a part; `expand` writes the pattern of a composite one. -/
def Part.text (expand : List Char → List Char) (d : Directive) : Part → List Char
  | .number filling width n => d.number filling width n
  | .name s => d.text (if d.isSwapped then s.map Char.toUpper else s)
  | .half s => d.fill (if d.isSwapped then s.map Char.toLower else s)
  | .mark s => d.fill s
  | .composite pattern => d.text (expand pattern)

/-- The text of the zone and fraction letters. They take neither flags nor a width: with either, the
zone is unknown and the fraction is no letter. -/
def zonePart? (m : Moment) (d : Directive) (c : Char) : Option (List Char) :=
  if c = 'z' then some (if d = {} then m.offsetText else [])
  else if c = 'Z' then
    some (if d = {} then m.zoneName else if d.filling = .none then [] else d.fill [])
  else if c = 'f' ∧ d = {} then some (padded '0' 6 m.microsecond)
  else none

/-- The text of the directive behind a percent sign, and what follows it. A directive that means
nothing stands for itself up to the character that spoils it. -/
def directive (m : Moment) (expand : List Char → List Char) (s : List Char) :
    List Char × List Char :=
  let (d, rest) := Directive.read s
  let itself (rest : List Char) : List Char × List Char :=
    (d.text ('%' :: s.take (s.length - rest.length)), rest)
  match rest with
  | [] => itself []
  | c :: rest =>
    if !d.admits c then itself rest
    else
      match zonePart? m d c with
      | some text => (text, rest)
      | none =>
        match part? m c with
        | some part => (part.text expand d, rest)
        | none => itself rest

/-- Writes a moment by a pattern, with a bound on the number of its parts. -/
def writeWith (m : Moment) (expand : List Char → List Char) : (bound : Nat) → List Char → List Char
  | 0, _ => []
  | _, [] => []
  | bound + 1, '%' :: rest =>
    let (text, rest) := directive m expand rest
    text ++ writeWith m expand bound rest
  | bound + 1, c :: rest => c :: writeWith m expand bound rest

/-- Writes the pattern of a composite part, which has no such parts itself. -/
def writeSimple (m : Moment) (pattern : List Char) : List Char :=
  writeWith m id pattern.length pattern

/-- Writes a moment by a pattern. -/
def format (m : Moment) (pattern : String) : String :=
  String.ofList (writeWith m m.writeSimple pattern.length pattern.toList)

end ReAct.Moment
