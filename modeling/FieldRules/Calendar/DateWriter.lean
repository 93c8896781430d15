import FieldRules.Calendar.Date
import FieldRules.Calendar.Names
import FieldRules.Number.Power

/-! # Writing dates by a format

A directive is a percent sign, flags, a width and a letter.  Numbers have a least number of
digits, filled with zeros or spaces as the directive or a flag says; a width fills any field on
the left.  A directive that is not known is written as it stands.  A text that takes more room
than its format gives it is not written at all.
-/

namespace FieldRules.Calendar

/-- What stands between the percent sign and the letter of a directive. -/
structure FieldStyle where
  /-- The character that numbers are filled with, a minus sign for none. -/
  pad : Option Char := none
  upper : Bool := false
  swapCase : Bool := false
  width : Nat := 0
  /-- A letter for an alternative form. -/
  alternative : Option Char := none

namespace FieldStyle

/-- A field filled up to the width. -/
def fill (style : FieldStyle) (cs : List Char) : List Char :=
  let filler := if style.pad = some '0' then '0' else ' '
  List.replicate (style.width - cs.length) filler ++ cs

/-- A number with a least count of digits, filled with zeros unless a flag says otherwise. -/
def number (style : FieldStyle) (digits n : Nat) : List Char :=
  let cs := Nat.toDigits 10 n
  let missing := max digits style.width - cs.length
  style.fill (match style.pad with
    | some '-' => cs
    | some '_' => List.replicate missing ' ' ++ cs
    | _ => List.replicate missing '0' ++ cs)

/-- A number filled with spaces unless a flag says otherwise. -/
def spacedNumber (style : FieldStyle) (digits n : Nat) : List Char :=
  if style.pad = some '0' || style.pad = some '-' then style.number digits n
  else { style with pad := some '_' }.number digits n

/-- A name, in capitals if a flag asks for them. -/
def name (style : FieldStyle) (s : String) : List Char :=
  let cs := s.toList
  style.fill (if style.upper || style.swapCase then cs.map Char.toUpper else cs)

/-- The half of the day. -/
def half (style : FieldStyle) (small : Bool) (s : String) : List Char :=
  let cs := s.toList
  style.fill (if small || style.swapCase then cs.map Char.toLower
    else if style.upper then cs.map Char.toUpper else cs)

end FieldStyle

namespace DateTime

/-- The hour from 1 to 12. -/
def hour12 (t : DateTime) : Nat := if t.hour % 12 = 0 then 12 else t.hour % 12

/-- The week of the year, weeks beginning on Sunday. -/
def sundayWeek (t : DateTime) : Nat :=
  (t.date.yearDay - 1 + 7 - (t.date.weekday + 1) % 7) / 7

/-- The week of the year, weeks beginning on Monday. -/
def mondayWeek (t : DateTime) : Nat := (t.date.yearDay - 1 + 7 - t.date.weekday) / 7

/-- The international year and week. -/
def isoWeek (t : DateTime) : Nat × Nat :=
  let year := t.date.year
  let week (yearDay : Int) : Int := (yearDay - 1 - t.date.weekday + 10) / 7
  let place : Int := t.date.yearDay
  let firstWeekday (year : Nat) : Nat := Date.weekday ⟨year, 1, 1⟩
  let weeksIn (year : Nat) : Int :=
    if firstWeekday year = 3 || (isLeap year && firstWeekday year = 2) then 53 else 52
  let n := week place
  if n < 1 then (year - 1, (weeksIn (year - 1)).toNat)
  else if weeksIn year < n then (year + 1, 1)
  else (year, n.toNat)

/-- The seconds since the beginning of 1970 by the clock. -/
def epochSeconds (t : DateTime) : Int :=
  ((((t.date.ordinal : Int) - 719163) * 24 + t.hour) * 60 + t.minute) * 60 + t.second

end DateTime

/-- The formats that single letters stand for. -/
def compoundFormat? : Char → Option String
  | 'c' => some "%a %b %e %H:%M:%S %Y"
  | 'D' | 'x' => some "%m/%d/%y"
  | 'F' => some "%Y-%m-%d"
  | 'R' => some "%H:%M"
  | 'r' => some "%I:%M:%S %p"
  | 'T' | 'X' => some "%H:%M:%S"
  | _ => none

/-- Whether an alternative form of a field is known, or none is asked for. -/
def allowsAlternative (letter : Char) : Option Char → Bool
  | none => true
  | some 'E' => "cCxXyYupPsntrRTZz%".toList.contains letter
  | some _ => "bhBCdeHIkljMmSUVgGWwuypPsntrRTZz%".toList.contains letter

/-- The text of a single field, none if the letter is not known. -/
def fieldText? (t : DateTime) (style : FieldStyle) (letter : Char) : Option (List Char) :=
  let sunday := (t.date.weekday + 1) % 7
  match letter with
  | '%' => some (style.fill ['%'])
  | 'a' => some (style.name (shortWeekdayNames[t.date.weekday]?.getD ""))
  | 'A' => some (style.name (weekdayNames[t.date.weekday]?.getD ""))
  | 'b' | 'h' => some (style.name (shortMonthNames[t.date.month - 1]?.getD ""))
  | 'B' => some (style.name (monthNames[t.date.month - 1]?.getD ""))
  | 'C' => some (style.number 1 (t.date.year / 100))
  | 'd' => some (style.number 2 t.date.day)
  | 'e' => some (style.spacedNumber 2 t.date.day)
  | 'H' => some (style.number 2 t.hour)
  | 'I' => some (style.number 2 t.hour12)
  | 'k' => some (style.spacedNumber 2 t.hour)
  | 'l' => some (style.spacedNumber 2 t.hour12)
  | 'j' => some (style.number 3 t.date.yearDay)
  | 'M' => some (style.number 2 t.minute)
  | 'm' => some (style.number 2 t.date.month)
  | 'n' => some (style.fill ['\n'])
  | 't' => some (style.fill ['\t'])
  | 'P' => some (style.half true (if t.hour < 12 then "AM" else "PM"))
  | 'p' => some (style.half false (if t.hour < 12 then "AM" else "PM"))
  | 'S' => some (style.number 2 t.second)
  | 's' =>
    let seconds := t.epochSeconds
    let digits := Nat.toDigits 10 seconds.natAbs
    some (style.fill (if seconds < 0 then '-' :: digits else digits))
  | 'u' => some (style.number 1 (t.date.weekday + 1))
  | 'w' => some (style.number 1 sunday)
  | 'U' => some (style.number 2 t.sundayWeek)
  | 'W' => some (style.number 2 t.mondayWeek)
  | 'V' => some (style.number 2 t.isoWeek.2)
  | 'G' => some (style.number 1 t.isoWeek.1)
  | 'g' => some (style.number 2 (t.isoWeek.1 % 100))
  | 'Y' => some (style.number 1 t.date.year)
  | 'y' => some (style.number 2 (t.date.year % 100))
  | 'Z' => some (if style.pad = some '-' then [] else style.fill [])
  | 'z' => some []
  | _ => none

/-- Takes the flags in front of a width. -/
def takeFlags (style : FieldStyle) : List Char → FieldStyle × List Char
  | c :: rest =>
    if c = '_' || c = '-' || c = '0' then takeFlags { style with pad := some c } rest
    else if c = '^' then takeFlags { style with upper := true } rest
    else if c = '#' then takeFlags { style with swapCase := true } rest
    else (style, c :: rest)
  | [] => (style, [])

/-- The room that a format of a number of bytes gives to its text. -/
def roomFor (size : Nat) : Nat := if size ≤ 4 then 1024 else 512 * Number.twoTo (size - 1).log2

/-- Takes the style in front of the letter of a directive.  A width beyond all the room is cut. -/
def takeStyle (room : Nat) (cs : List Char) : FieldStyle × List Char :=
  let (style, rest) := takeFlags {} cs
  let width := (rest.takeWhile Char.isDigit).foldl (fun n c => 10 * n + (c.toNat - 48)) 0
  let style := { style with width := min width room }
  match rest.dropWhile Char.isDigit with
  | c :: rest =>
    if c = 'E' || c = 'O' then ({ style with alternative := some c }, rest)
    else (style, c :: rest)
  | [] => (style, [])

/-- Writes a time by a format, given the texts of compound fields. -/
def writeWith (t : DateTime) (room : Nat) (compound? : Char → Option (List Char)) :
    (fuel : Nat) → List Char → List Char
  | 0, _ => []
  | _, [] => []
  | fuel + 1, '%' :: rest =>
    let (style, after) := takeStyle room rest
    let letter := after.head?.getD 'd'
    let text := match compound? letter, fieldText? t style letter with
      | some cs, _ => some (style.fill (if style.upper then cs.map Char.toUpper else cs))
      | none, text => text
    let known := !after.isEmpty && allowsAlternative letter style.alternative
    let after := after.tail
    let unknown := '%' :: rest.take (rest.length - after.length)
    let upper := style.upper || style.swapCase && ['b', 'B', 'h'].contains letter
    let written := match known, text with
      | true, some cs => cs
      | _, _ => style.fill (if upper then unknown.map Char.toUpper else unknown)
    written ++ writeWith t room compound? fuel after
  | fuel + 1, c :: rest => c :: writeWith t room compound? fuel rest

/-- The text of a compound field. -/
def compoundText? (t : DateTime) (letter : Char) : Option (List Char) :=
  (compoundFormat? letter).map fun format =>
    writeWith t 0 (fun _ => none) format.length format.toList

/-- The fields that do not depend on the format's conventions are filled in first: the fraction
of the second, the offset and the name of the zone.  The format ends before a null character. -/
def fillClock (t : DateTime) : List Char → List Char
  | '\x00' :: _ => []
  | '%' :: '\x00' :: _ => ['%']
  | '%' :: c :: rest =>
    let filled := match c with
      | 'f' => (padded 6 t.microsecond).toList
      | 'z' => ((t.offset.map (DateTime.offsetText "")).getD "").toList
      | 'Z' =>
        match t.offset with
        | none => []
        | some 0 => ['U', 'T', 'C']
        | some offset => ("UTC" ++ DateTime.offsetText ":" offset).toList
      | c => ['%', c]
    filled ++ fillClock t rest
  | c :: rest => c :: fillClock t rest
  | [] => []

/-- The text of a time by a format. -/
def DateTime.formatted (t : DateTime) (format : String) : String :=
  let cs := fillClock t format.toList
  let room := roomFor (String.ofList cs).utf8ByteSize
  let text := String.ofList (writeWith t room (compoundText? t) (cs.length + 1) cs)
  if text.utf8ByteSize < room then text else ""

end FieldRules.Calendar
