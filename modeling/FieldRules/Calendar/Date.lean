/-! # Dates and times

Days of the Gregorian calendar from year 1 to 9999, times of day to the microsecond, and their
texts in the international format.  A time may carry an offset from universal time.
-/

namespace FieldRules.Calendar

/-- A day of the calendar. -/
structure Date where
  year : Nat
  month : Nat
  day : Nat
  deriving DecidableEq, Repr, Inhabited

/-- Whether a year has a leap day. -/
def isLeap (year : Nat) : Bool := year % 4 == 0 && (year % 100 != 0 || year % 400 == 0)

/-- The number of days of a year. -/
def daysInYear (year : Nat) : Nat := if isLeap year then 366 else 365

/-- The number of days of a month. -/
def daysInMonth (year month : Nat) : Nat :=
  if month = 2 then (if isLeap year then 29 else 28)
  else if month = 4 ∨ month = 6 ∨ month = 9 ∨ month = 11 then 30
  else 31

/-- The number of days before a year, from year 1 on. -/
def daysBeforeYear (year : Nat) : Nat :=
  let past := year - 1
  past * 365 + past / 4 - past / 100 + past / 400

/-- The number of days of a year before a month. -/
def daysBeforeMonth (year : Nat) : (month : Nat) → Nat
  | 0 | 1 => 0
  | month + 1 => daysBeforeMonth year month + daysInMonth year month

namespace Date

/-- Whether the calendar has the day. -/
def isValid (date : Date) : Bool :=
  1 ≤ date.year && date.year ≤ 9999 && 1 ≤ date.month && date.month ≤ 12 &&
    1 ≤ date.day && date.day ≤ daysInMonth date.year date.month

/-- The place of a day in its year, from 1 on. -/
def yearDay (date : Date) : Nat := daysBeforeMonth date.year date.month + date.day

/-- The number of a day, the first day of year 1 being 1. -/
def ordinal (date : Date) : Nat := daysBeforeYear date.year + date.yearDay

/-- The day of the week, Monday being 0. -/
def weekday (date : Date) : Nat := (date.ordinal + 6) % 7

/-- The month and day at a place of a year, looked for from a month on. -/
def fromMonth (year month yearDay : Nat) : (months : Nat) → Date
  | 0 => ⟨year, month, yearDay⟩
  | months + 1 =>
    if yearDay ≤ daysInMonth year month then ⟨year, month, yearDay⟩
    else fromMonth year (month + 1) (yearDay - daysInMonth year month) months

/-- The year of a day and its place there: whole cycles of 400, 100, 4 and single years are
taken off the days passed. -/
def yearOf (passed : Nat) : Nat × Nat :=
  let afterFours := passed % 146097
  let centuries := min (afterFours / 36524) 3
  let inCentury := afterFours - centuries * 36524
  let inFour := inCentury % 1461
  let years := min (inFour / 365) 3
  (400 * (passed / 146097) + 100 * centuries + 4 * (inCentury / 1461) + years + 1,
    inFour - years * 365 + 1)

/-- The day with a number, if the calendar has it. -/
def ofOrdinal? (ordinal : Int) : Option Date :=
  if ordinal < 1 then none
  else
    let (year, yearDay) := yearOf (ordinal.toNat - 1)
    let date := fromMonth year 1 yearDay 11
    if date.isValid then some date else none

end Date

/-- A time of a day, with the seconds by which its clock is ahead of universal time where that
is known. -/
structure DateTime where
  date : Date
  hour : Nat := 0
  minute : Nat := 0
  second : Nat := 0
  microsecond : Nat := 0
  offset : Option Int := none
  deriving DecidableEq, Repr, Inhabited

/-- A number with zeros before it up to a width. -/
def padded (width n : Nat) : String :=
  let digits := Nat.toDigits 10 n
  String.ofList (List.replicate (width - digits.length) '0' ++ digits)

/-- The text of a day, such as `2024-01-15`. -/
def Date.isoText (date : Date) : String :=
  padded 4 date.year ++ "-" ++ padded 2 date.month ++ "-" ++ padded 2 date.day

namespace DateTime

/-- Whether the calendar and the clock have the time. -/
def isValid (t : DateTime) : Bool :=
  t.date.isValid && t.hour < 24 && t.minute < 60 && t.second < 60 && t.microsecond < 1000000 &&
    (t.offset.map fun offset => decide (offset.natAbs < 86400)).getD true

/-- The text of an offset, such as `+05:30`. -/
def offsetText (separator : String) (offset : Int) : String :=
  let seconds := offset.natAbs
  let sign := if offset < 0 then "-" else "+"
  let base := sign ++ padded 2 (seconds / 3600) ++ separator ++ padded 2 (seconds / 60 % 60)
  if seconds % 60 = 0 then base else base ++ separator ++ padded 2 (seconds % 60)

/-- The text of a time of day, with a fraction if there is one. -/
def clockText (t : DateTime) : String :=
  let base := padded 2 t.hour ++ ":" ++ padded 2 t.minute ++ ":" ++ padded 2 t.second
  if t.microsecond = 0 then base else base ++ "." ++ padded 6 t.microsecond

/-- The text of a time, with a separator between the day and the clock. -/
def isoTextWith (separator : String) (t : DateTime) : String :=
  t.date.isoText ++ separator ++ t.clockText ++ ((t.offset.map (offsetText ":")).getD "")

/-- The text of a time, such as `2024-01-15T10:30:45`. -/
def isoText (t : DateTime) : String := t.isoTextWith "T"

/-- The microseconds from the first day of year 1 by the clock's own reckoning. -/
def clockMicroseconds (t : DateTime) : Int :=
  (((t.date.ordinal * 24 + t.hour) * 60 + t.minute) * 60 + t.second) * 1000000 + t.microsecond

/-- The microseconds by universal time. -/
def universalMicroseconds (t : DateTime) : Int :=
  t.clockMicroseconds - t.offset.getD 0 * 1000000

/-- Times without offset are the same by their clocks, times with one by universal time; a time
of one kind is never the same as one of the other. -/
def same (a b : DateTime) : Bool :=
  a.offset.isSome == b.offset.isSome && a.universalMicroseconds == b.universalMicroseconds

end DateTime

/-- Reads a number of exactly so many ASCII digits. -/
def readDigits (count : Nat) (cs : List Char) : Option (Nat × List Char) :=
  let digits := cs.take count
  if digits.length = count ∧ digits.all Char.isDigit then
    some (digits.foldl (fun n c => 10 * n + (c.toNat - 48)) 0, cs.drop count)
  else none

/-- Reads one given character. -/
def readChar (c : Char) : List Char → Option (List Char)
  | d :: rest => if c = d then some rest else none
  | [] => none

/-- Reads the text of a day and gives the rest. -/
def readIsoDate (cs : List Char) : Option (Date × List Char) := do
  let (year, cs) ← readDigits 4 cs
  let cs ← readChar '-' cs
  let (month, cs) ← readDigits 2 cs
  let cs ← readChar '-' cs
  let (day, cs) ← readDigits 2 cs
  return (⟨year, month, day⟩, cs)

/-- The day that a text denotes. -/
def Date.ofIso? (s : String) : Option Date := do
  let (date, rest) ← readIsoDate s.toList
  if rest.isEmpty && date.isValid then some date else none

/-- Reads a number behind a separator, zero if the separator is missing. -/
def readField (separator : Char) (cs : List Char) : Option (Nat × List Char) :=
  match readChar separator cs with
  | some cs => readDigits 2 cs
  | none => some (0, cs)

/-- Reads a fraction of a second, zero if there is none. -/
def readFraction (cs : List Char) : Option (Nat × List Char) :=
  match readChar '.' cs with
  | some cs => readDigits 6 cs
  | none => some (0, cs)

/-- Reads an offset, if there is one. -/
def readOffset : List Char → Option (Option Int × List Char)
  | 'Z' :: rest => some (some 0, rest)
  | c :: rest =>
    if c = '+' || c = '-' then do
      let (hours, rest) ← readDigits 2 rest
      let (minutes, rest) ← readField ':' rest
      let (seconds, rest) ← readField ':' rest
      let total : Int := (hours * 60 + minutes) * 60 + seconds
      return (some (if c = '-' then -total else total), rest)
    else some (none, c :: rest)
  | [] => some (none, [])

/-- The time that a text denotes. -/
def DateTime.ofIso? (s : String) : Option DateTime := do
  let (date, cs) ← readIsoDate s.toList
  match cs with
  | [] => if date.isValid then some { date } else none
  | _ :: cs =>
    let (hour, cs) ← readDigits 2 cs
    let (minute, cs) ← readField ':' cs
    let (second, cs) ← readField ':' cs
    let (microsecond, cs) ← readFraction cs
    let (offset, cs) ← readOffset cs
    let t : DateTime := { date, hour, minute, second, microsecond, offset }
    if cs.isEmpty && t.isValid then some t else none

end FieldRules.Calendar
