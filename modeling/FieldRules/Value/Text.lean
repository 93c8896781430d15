import FieldRules.Number.Power
import FieldRules.Text.Quoted
import FieldRules.Value.Basic

/-! # The text of values

The printed form of a value shows its type: texts are quoted, collections bracketed.  The plain
form differs from it for texts, which stand for themselves, and dates.  A whole number of more
digits than a conversion may give has no text.
-/

namespace FieldRules

open Calendar Number Text

/-- The least whole number with too many digits for text. -/
def textBound : Nat := tenTo 4300

/-- The text of a whole number, none if it has too many digits. -/
def wholeText? (n : Int) : Option String :=
  if n.natAbs < textBound then some (toString n) else none

namespace Calendar

/-- The printed form of a day. -/
def Date.printed (date : Date) : String :=
  s!"datetime.date({date.year}, {date.month}, {date.day})"

/-- The printed form of an offset from universal time. -/
def offsetPrinted (offset : Int) : String :=
  if offset = 0 then "datetime.timezone.utc"
  else
    let days := offset / 86400
    let seconds := offset % 86400
    let parts := (if days = 0 then [] else [s!"days={days}"]) ++
      (if seconds = 0 then [] else [s!"seconds={seconds}"])
    "datetime.timezone(datetime.timedelta(" ++ ", ".intercalate parts ++ "))"

/-- The printed form of a time; seconds and microseconds of zero at its end are left out. -/
def DateTime.printed (t : DateTime) : String :=
  let fields := [t.date.year, t.date.month, t.date.day, t.hour, t.minute] ++
    (if t.microsecond ≠ 0 then [t.second, t.microsecond]
     else if t.second ≠ 0 then [t.second] else [])
  let zone := match t.offset with
    | none => []
    | some offset => ["tzinfo=" ++ offsetPrinted offset]
  "datetime.datetime(" ++ ", ".intercalate (fields.map toString ++ zone) ++ ")"

end Calendar

/-! ## Collections of printed forms -/

/-- The printed form of a list. -/
def listText (texts : List String) : String := "[" ++ ", ".intercalate texts ++ "]"

/-- The printed form of a tuple, with a comma behind a single item. -/
def tupleText : List String → String
  | [text] => "(" ++ text ++ ",)"
  | texts => "(" ++ ", ".intercalate texts ++ ")"

/-- The printed form of a set. -/
def setText (texts : List String) : String :=
  if texts.isEmpty then "set()" else "\x7b" ++ ", ".intercalate texts ++ "\x7d"

/-- The printed form of a dictionary, whose entries are printed with their keys. -/
def dictText (texts : List String) : String := "\x7b" ++ ", ".intercalate texts ++ "\x7d"

namespace Value

mutual

/-- The printed form of a value. -/
def printed? : Value → Option String
  | .none => some "None"
  | .bool b => some (if b then "True" else "False")
  | .int n => wholeText? n
  | .float x => some x.text
  | .str s => some (quoted s)
  | .list items => (printedItems? items).map listText
  | .tuple items => (printedItems? items).map tupleText
  | .set items => (printedItems? items).map setText
  | .dict entries => (printedEntries? entries).map dictText
  | .bytes octets => some (quotedBytes octets)
  | .date d => some d.printed
  | .datetime t => some t.printed
  | .missing => some "MISSING"

/-- The printed forms of items. -/
def printedItems? : List Value → Option (List String)
  | [] => some []
  | item :: items =>
    match printed? item, printedItems? items with
    | some text, some texts => some (text :: texts)
    | _, _ => Option.none

/-- The printed forms of the entries of a dictionary. -/
def printedEntries? : List (Value × Value) → Option (List String)
  | [] => some []
  | (key, value) :: entries =>
    match printed? key, printed? value, printedEntries? entries with
    | some keyText, some text, some texts => some ((keyText ++ ": " ++ text) :: texts)
    | _, _, _ => Option.none

end

/-- The plain form of a value. -/
def text? : Value → Option String
  | .str s => some s
  | .date d => some d.isoText
  | .datetime t => some (t.isoTextWith " ")
  | value => value.printed?

end Value

end FieldRules
