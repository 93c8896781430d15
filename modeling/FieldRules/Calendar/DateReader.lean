import FieldRules.Calendar.Date
import FieldRules.Calendar.Names
import FieldRules.Number.Power
import FieldRules.Pattern.Matcher

/-! # Reading dates by a format

A format is literal text with directives, a percent sign and a letter each.  Blanks in the
format stand for one blank or more, letters match in either case, and each directive matches
the digits or names of its field.  The fields that are read then determine a time: directly, by
the day of the year, or by a week and a day of the week.
-/

namespace FieldRules.Calendar

open FieldRules.Pattern FieldRules.Text

/-- A field of a date format. -/
inductive Directive where
  | day | month | year | shortYear | hour | hour12 | half | minute | second | fraction
  | yearDay | monthName | shortMonthName | weekdayName | shortWeekdayName
  /-- The day of the week as a number, Sunday being 0. -/
  | weekdayNumber
  /-- The day of the week as a number, Sunday being 7. -/
  | isoWeekdayNumber
  | sundayWeek | mondayWeek | isoWeek | isoYear | offset | zone
  deriving DecidableEq, Repr

/-- Why a text is no date format. -/
inductive FormatFault where
  /-- A percent sign is not followed by a directive. -/
  | badDirective
  /-- A directive occurs twice. -/
  | repeatedDirective
  deriving DecidableEq, Repr

/-- A piece of a date format. -/
inductive FormatPiece where
  | text (c : Char)
  | blanks
  | field (directive : Directive)
  deriving DecidableEq, Repr

namespace Directive

/-- The directive of a letter, if it is a single field. -/
def ofLetter? : Char → Option Directive
  | 'd' => some .day
  | 'm' => some .month
  | 'Y' => some .year
  | 'y' => some .shortYear
  | 'H' => some .hour
  | 'I' => some .hour12
  | 'p' => some .half
  | 'M' => some .minute
  | 'S' => some .second
  | 'f' => some .fraction
  | 'j' => some .yearDay
  | 'B' => some .monthName
  | 'b' => some .shortMonthName
  | 'A' => some .weekdayName
  | 'a' => some .shortWeekdayName
  | 'w' => some .weekdayNumber
  | 'u' => some .isoWeekdayNumber
  | 'U' => some .sundayWeek
  | 'W' => some .mondayWeek
  | 'V' => some .isoWeek
  | 'G' => some .isoYear
  | 'z' => some .offset
  | 'Z' => some .zone
  | _ => none

/-- One given character. -/
def charNode (c : Char) : Node := .literal c.toNat false

/-- One character of a range. -/
def rangeNode (first last : Char) : Node := .set false [.range first.toNat last.toNat]

/-- A digit of any script. -/
def digitNode : Node := .set false [.named .digit false]

/-- Parts one after another. -/
def seqOf : List Node → Node
  | [] => .empty
  | [node] => node
  | node :: rest => .seq node (seqOf rest)

/-- The first of some parts that matches. -/
def firstOf : List Node → Node
  | [] => .empty
  | [node] => node
  | node :: rest => .either node (firstOf rest)

/-- A given text. -/
def textNode (s : String) : Node := seqOf (s.toList.map charNode)

/-- The longest of some names that matches. -/
def nameNode (names : List String) : Node :=
  firstOf ((names.mergeSort fun a b => b.length ≤ a.length).map textNode)

/-- An optional part. -/
def optional (node : Node) : Node := .repeated .greedy 0 (some 1) node

/-- What the text of a field looks like. -/
def node : Directive → Node
  | .day => firstOf [
      seqOf [charNode '3', rangeNode '0' '1'], seqOf [rangeNode '1' '2', digitNode],
      seqOf [charNode '0', rangeNode '1' '9'], rangeNode '1' '9',
      seqOf [charNode ' ', rangeNode '1' '9']]
  | .month | .hour12 => firstOf [
      seqOf [charNode '1', rangeNode '0' '2'], seqOf [charNode '0', rangeNode '1' '9'],
      rangeNode '1' '9']
  | .year | .isoYear => seqOf [digitNode, digitNode, digitNode, digitNode]
  | .shortYear => seqOf [digitNode, digitNode]
  | .hour => firstOf [
      seqOf [charNode '2', rangeNode '0' '3'], seqOf [rangeNode '0' '1', digitNode], digitNode]
  | .half => nameNode ["am", "pm"]
  | .minute => firstOf [seqOf [rangeNode '0' '5', digitNode], digitNode]
  | .second => firstOf [
      seqOf [charNode '6', rangeNode '0' '1'], seqOf [rangeNode '0' '5', digitNode], digitNode]
  | .fraction => .repeated .greedy 1 (some 6) (rangeNode '0' '9')
  | .yearDay => firstOf [
      seqOf [charNode '3', charNode '6', rangeNode '0' '6'],
      seqOf [charNode '3', rangeNode '0' '5', digitNode],
      seqOf [rangeNode '1' '2', digitNode, digitNode],
      seqOf [charNode '0', rangeNode '1' '9', digitNode],
      seqOf [charNode '0', charNode '0', rangeNode '1' '9'],
      seqOf [rangeNode '1' '9', digitNode], seqOf [charNode '0', rangeNode '1' '9'],
      rangeNode '1' '9']
  | .monthName => nameNode (monthNames.map lower)
  | .shortMonthName => nameNode (shortMonthNames.map lower)
  | .weekdayName => nameNode (weekdayNames.map lower)
  | .shortWeekdayName => nameNode (shortWeekdayNames.map lower)
  | .weekdayNumber => rangeNode '0' '6'
  | .isoWeekdayNumber => rangeNode '1' '7'
  | .sundayWeek | .mondayWeek => firstOf [
      seqOf [charNode '5', rangeNode '0' '3'], seqOf [rangeNode '0' '4', digitNode], digitNode]
  | .isoWeek => firstOf [
      seqOf [charNode '5', rangeNode '0' '3'], seqOf [charNode '0', rangeNode '1' '9'],
      seqOf [rangeNode '1' '4', digitNode], digitNode]
  | .offset =>
    let colon := optional (charNode ':')
    let pair := seqOf [rangeNode '0' '5', digitNode]
    let fraction := seqOf [charNode '.', .repeated .greedy 1 (some 6) digitNode]
    firstOf [
      seqOf [.set false [.code '+'.toNat, .code '-'.toNat], digitNode, digitNode, colon, pair,
        optional (seqOf [colon, pair, optional fraction])],
      .scoped { off := { ignoreCase := true } } (charNode 'Z')]
  | .zone => nameNode ["utc", "gmt"]

end Directive

namespace FormatPiece

/-- The pieces of a text with its own directives. -/
def ofCompound (directives : List (Char ⊕ Directive)) : List FormatPiece :=
  directives.map fun
    | .inl ' ' => .blanks
    | .inl c => .text c
    | .inr directive => .field directive

/-- The clock of a compound directive. -/
def clock : List (Char ⊕ Directive) := [.inr .hour, .inl ':', .inr .minute, .inl ':', .inr .second]

/-- The pieces that a letter behind a percent sign stands for. -/
def ofLetter? (c : Char) : Option (List FormatPiece) :=
  if c = '%' then some [.text '%']
  else if c = 'c' then some (ofCompound
    ([.inr .shortWeekdayName, .inl ' ', .inr .shortMonthName, .inl ' ', .inr .day, .inl ' '] ++
      clock ++ [.inl ' ', .inr .year]))
  else if c = 'x' then some (ofCompound
    [.inr .month, .inl '/', .inr .day, .inl '/', .inr .shortYear])
  else if c = 'X' then some (ofCompound clock)
  else (Directive.ofLetter? c).map fun directive => [.field directive]

/-- The pieces of a format. -/
def ofFormat : List Char → Except FormatFault (List FormatPiece)
  | [] => .ok []
  | '%' :: c :: rest =>
    match ofLetter? c with
    | some pieces => (ofFormat rest).map (pieces ++ ·)
    | none => .error .badDirective
  | ['%'] => .error .badDirective
  | c :: rest =>
    if isBlank c then (ofFormat rest).map fun
      | .blanks :: pieces => .blanks :: pieces
      | pieces => .blanks :: pieces
    else (ofFormat rest).map (.text c :: ·)

/-- What a piece matches; the field of a directive is kept under a number. -/
def node (index : Nat) : FormatPiece → Node
  | .text c => .literal c.toNat false
  | .blanks => .repeated .greedy 1 none (.set false [.named .blank false])
  | .field directive => .capture index directive.node

/-- The directives among numbered pieces. -/
def directives (pieces : List (FormatPiece × Nat)) : List (Directive × Nat) :=
  pieces.filterMap fun
    | (.field directive, index) => some (directive, index)
    | _ => none

end FormatPiece

/-- The fields of a date that a text gives. -/
structure DateFields where
  year : Option Nat := none
  isoYear : Option Nat := none
  month : Nat := 1
  day : Nat := 1
  hour : Nat := 0
  minute : Nat := 0
  second : Nat := 0
  microsecond : Nat := 0
  yearDay : Option Nat := none
  weekday : Option Nat := none
  /-- A week of the year, and whether weeks begin on Monday. -/
  week : Option (Nat × Bool) := none
  isoWeek : Option Nat := none
  offset : Option Int := none

namespace DateFields

/-- The number that the digits of a text write. -/
def numberOf (cs : List Char) : Nat :=
  cs.foldl (fun n c => ((digitValue? c).map (10 * n + ·)).getD n) 0

/-- The place of a text among names, whatever its case. -/
def placeOf? (names : List String) (cs : List Char) : Option Nat :=
  names.findIdx? fun name => lower name == lower (String.ofList cs)

/-- An offset as hours, minutes and seconds; a colon between the first two goes with one before
the seconds. -/
def readOffset? (cs : List Char) : Option Int := do
  if cs = ['Z'] then return 0
  let sign := cs.head?
  let body := cs.tail
  let withColon := body[2]? = some ':'
  let afterHours := if withColon then body.drop 3 else body.drop 2
  let afterMinutes := afterHours.drop 2
  let seconds ← match afterMinutes with
    | [] => some []
    | ':' :: rest => if withColon then some rest else none
    | rest => if withColon then none else some rest
  let total : Int :=
    (numberOf (body.take 2) * 60 + numberOf (afterHours.take 2)) * 60 + numberOf (seconds.take 2)
  return if sign = some '-' then -total else total

/-- A year of two digits lies between 1969 and 2068. -/
def wholeYear (short : Nat) : Nat := if short ≤ 68 then short + 2000 else short + 1900

/-- The hour of the day by an hour from 1 to 12 and a half of the day. -/
def hourOf (hour : Nat) (half : Option (List Char)) : Nat :=
  if half.map (lower ∘ String.ofList) = some "pm" then (if hour = 12 then 12 else hour + 12)
  else (if hour = 12 then 0 else hour)

/-- Puts the text of a field into the fields. -/
def add (half : Option (List Char)) (fields : DateFields) (directive : Directive)
    (cs : List Char) : Option DateFields :=
  let n := numberOf cs
  match directive with
  | .day => some { fields with day := n }
  | .month => some { fields with month := n }
  | .year => some { fields with year := some n }
  | .shortYear => some { fields with year := some (wholeYear n) }
  | .hour => some { fields with hour := n }
  | .hour12 => some { fields with hour := hourOf n half }
  | .half | .zone => some fields
  | .minute => some { fields with minute := n }
  | .second => some { fields with second := n }
  | .fraction => some { fields with microsecond := n * Number.tenTo (6 - cs.length) }
  | .yearDay => some { fields with yearDay := some n }
  | .monthName => (placeOf? monthNames cs).map fun i => { fields with month := i + 1 }
  | .shortMonthName => (placeOf? shortMonthNames cs).map fun i => { fields with month := i + 1 }
  | .weekdayName => (placeOf? weekdayNames cs).map fun i => { fields with weekday := some i }
  | .shortWeekdayName =>
    (placeOf? shortWeekdayNames cs).map fun i => { fields with weekday := some i }
  | .weekdayNumber => some { fields with weekday := some ((n + 6) % 7) }
  | .isoWeekdayNumber => some { fields with weekday := some (n - 1) }
  | .sundayWeek => some { fields with week := some (n, false) }
  | .mondayWeek => some { fields with week := some (n, true) }
  | .isoWeek => some { fields with isoWeek := some n }
  | .isoYear => some { fields with isoYear := some n }
  | .offset => (readOffset? cs).map fun offset => { fields with offset := some offset }

/-- The first day of a year, if the calendar has it. -/
def newYear? (year : Nat) : Option Date :=
  if 1 ≤ year && year ≤ 9999 then some ⟨year, 1, 1⟩ else none

/-- The place in a year of a day given by its week and its day of the week; it may lie before
the year. -/
def placeByWeek (first : Date) (week : Nat) (mondayFirst : Bool) (weekday : Nat) : Int :=
  let (start, day) :=
    if mondayFirst then (first.weekday, weekday)
    else ((first.weekday + 1) % 7, (weekday + 1) % 7)
  if week = 0 then 1 + day - start
  else 1 + ((7 - start) % 7 : Nat) + 7 * (week - 1 : Nat) + day

/-- The year and the place there of a day given by the international week. -/
def placeByIsoWeek? (year week weekday : Nat) : Option (Nat × Int) := do
  let first ← newYear? year
  let correction : Int := (Date.weekday ⟨year, 1, 4⟩ : Int) + 1 + 3
  let place : Int := week * 7 + (weekday + 1) - correction
  if place < 1 then
    let before ← newYear? (year - 1)
    return (year - 1, place + first.ordinal - before.ordinal)
  else return (year, place)

/-- The year and the place there of the day, if they are given otherwise than by month and
day. -/
def place? (fields : DateFields) (year : Nat) : Option (Nat × Option Int) := do
  match fields.yearDay, fields.weekday with
  | some place, _ => return (year, some place)
  | none, none => return (year, none)
  | none, some weekday =>
    match fields.week, fields.isoYear, fields.isoWeek with
    | some (week, mondayFirst), _, _ =>
      let first ← newYear? year
      let place := placeByWeek first week mondayFirst weekday
      if place ≤ 0 then return (year - 1, some (place + daysInYear (year - 1)))
      else return (year, some place)
    | none, some isoYear, some isoWeek =>
      let (year, place) ← placeByIsoWeek? isoYear isoWeek weekday
      return (year, some place)
    | _, _, _ => return (year, none)

/-- An international year comes with its week and a day of the week and without the day of the
year, and its week comes with it. -/
def isoConsistent (fields : DateFields) : Bool :=
  match fields.isoYear, fields.isoWeek with
  | some _, isoWeek => fields.yearDay.isNone && isoWeek.isSome && fields.weekday.isSome
  | none, some _ => false
  | none, none => true

/-- The time that the fields determine, if there is one.  Without a year it is 1900; the leap day
is first looked for in a leap year, and then found missing. -/
def time? (fields : DateFields) : Option DateTime := do
  guard fields.isoConsistent
  let leapDay := fields.year.isNone && fields.month = 2 && fields.day = 29
  let (year, place) ← fields.place? (fields.year.getD (if leapDay then 1904 else 1900))
  let date ← match place with
    | none => some ⟨year, fields.month, fields.day⟩
    | some place => do
      let first ← newYear? year
      Date.ofOrdinal? (place - 1 + first.ordinal)
  guard date.isValid
  let date := if leapDay then { date with year := 1900 } else date
  let t : DateTime := {
    date, hour := fields.hour, minute := fields.minute, second := fields.second,
    microsecond := fields.microsecond, offset := fields.offset }
  guard t.isValid
  return t

end DateFields

/-- The stretch of a text that a group matched. -/
def stretch (text : List Char) (cursor : Cursor) (index : Nat) : List Char :=
  match cursor.captured? index with
  | some (first, stop) => (text.drop first).take (stop - first)
  | none => []

/-- The time that a text gives by a format, none if the text does not follow the format or gives
no time. -/
def readTime (format text : String) : Except FormatFault (Option DateTime) := do
  let pieces := (← FormatPiece.ofFormat format.toList).zipIdx 1
  let directives := FormatPiece.directives pieces
  unless (directives.map (·.1)).Nodup do throw .repeatedDirective
  let node := Directive.seqOf (pieces.map fun (piece, index) => piece.node index)
  let pattern : Pattern := { source := format, flags := {}, node, groupWidths := [] }
  let cs := text.toList
  match pattern.matchStart? { ignoreCase := true } cs with
  | none => return none
  | some cursor =>
    if cursor.position ≠ cs.length then return none
    let fieldText (directive : Directive) : Option (List Char) :=
      (directives.lookup directive).map (stretch cs cursor)
    let fields := directives.foldlM (fun fields (directive, index) =>
      DateFields.add (fieldText .half) fields directive (stretch cs cursor index)) ({} : DateFields)
    return fields.bind DateFields.time?

end FieldRules.Calendar
