import FieldRules.Fault

/-! # Writing JSON

Values are written without blanks, and characters beyond ASCII as they are.  Tuples are written as
arrays, dates and times as strings; numbers that are not finite become `null`.  Whole numbers
must fit in 64 bits, with or without sign, and the keys of objects must be texts.
-/

namespace FieldRules.Json

open FieldRules.Number FieldRules.Text FieldRules.Calendar

/-- Numbers are written positionally below 10¹⁶ and from 10⁻⁵ on, and with the shortest
exponent elsewhere. -/
def numberLayout : Layout where
  mostWhole := 16
  mostZeros := 4
  plusExponent := true
  exponentDigits := 1
  nan := "null"
  infinity := "null"

/-- The text of a floating-point number. -/
def numberText : Binary64 → String
  | .finite negative m => numberLayout.text (.finite negative m)
  | _ => "null"

/-- One character of a string. -/
def escapedChar (c : Char) : List Char :=
  if c = '"' || c = '\\' then ['\\', c]
  else if c = '\n' then ['\\', 'n']
  else if c = '\r' then ['\\', 'r']
  else if c = '\t' then ['\\', 't']
  else if c = '\x08' then ['\\', 'b']
  else if c = '\x0c' then ['\\', 'f']
  else if c.toNat < 32 then '\\' :: 'u' :: hexDigits 4 c.toNat
  else [c]

/-- A string in quotes. -/
def stringText (s : String) : String :=
  String.ofList ('"' :: s.toList.flatMap escapedChar ++ ['"'])

/-- The text of an offset, to the nearest minute. -/
def zoneText (offset : Int) : String :=
  let seconds := offset.natAbs
  let minutes := seconds / 60 % 60 + (if 30 ≤ seconds % 60 then 1 else 0)
  (if offset < 0 then "-" else "+") ++ padded 2 (seconds / 3600) ++ ":" ++ padded 2 minutes

/-- The text of a time. -/
def timeText (t : DateTime) : String :=
  (DateTime.isoText { t with offset := none }) ++ (t.offset.map zoneText).getD ""

/-- An array of texts. -/
def arrayText (items : List String) : String := "[" ++ joinWith "," items ++ "]"

/-- An object of keys and texts. -/
def objectText (entries : List (String × String)) : String :=
  "\x7b" ++ joinWith "," (entries.map fun (key, text) => stringText key ++ ":" ++ text) ++ "\x7d"

/-- Whether a whole number fits 64 bits, with a sign or without one. -/
def isWithin64 (n : Int) : Bool := -(Number.twoTo 63 : Int) ≤ n && n < (Number.twoTo 64 : Int)

mutual

/-- The text of a value; `foreign` writes the values that JSON does not know. -/
def write (foreign : Value → Outcome String) : Value → Outcome String
  | .none => .ok "null"
  | .bool b => .ok (if b then "true" else "false")
  | .int n => if isWithin64 n then .ok (toString n) else .error .integerTooWide
  | .float x => .ok (numberText x)
  | .str s => .ok (stringText s)
  | .list items => do return arrayText (← writeItems foreign items)
  | .tuple items => do return arrayText (← writeItems foreign items)
  | .dict entries => do return objectText (← writeEntries foreign entries)
  | .date d => .ok (stringText d.isoText)
  | .datetime t => .ok (stringText (timeText t))
  | .set items => foreign (.set items)
  | .bytes octets => foreign (.bytes octets)
  | .missing => foreign .missing

/-- The texts of items. -/
def writeItems (foreign : Value → Outcome String) : List Value → Outcome (List String)
  | [] => .ok []
  | item :: items => do
    let text ← write foreign item
    return text :: (← writeItems foreign items)

/-- The texts of the entries of an object. -/
def writeEntries (foreign : Value → Outcome String) :
    List (Value × Value) → Outcome (List (String × String))
  | [] => .ok []
  | (key, value) :: entries =>
    match key with
    | .str key => do
      let text ← write foreign value
      return (key, text) :: (← writeEntries foreign entries)
    | _ => .error .keyNotText

end

/-- Refuses the values that JSON does not know. -/
def refuse (value : Value) : Outcome String := .error (.notSerializable value.qualifiedTypeName)

/-- Writes the values that JSON does not know in their printed form. -/
def printedString (value : Value) : Outcome String :=
  match value.printed? with
  | some text => .ok (stringText text)
  | none => .error (.notSerializable value.qualifiedTypeName)

end FieldRules.Json
