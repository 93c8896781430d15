import FieldRules.Number.Literal
import FieldRules.Value.Basic

/-! # Reading JSON

A text is read as one value between blanks.  Besides the values of the standard, the words `NaN`,
`Infinity` and `-Infinity` are numbers.  A whole number may not have more digits than a
conversion takes.  Of entries of an object with the same key the last one counts.
-/

namespace FieldRules.Json

open FieldRules.Number FieldRules.Text

/-- Why a text is not read. -/
inductive ReadFault where
  | malformed
  | tooManyDigits (count : Nat)
  deriving DecidableEq, Repr

/-- Whether a character may stand between tokens. -/
def isGap (c : Char) : Bool := c == ' ' || c == '\t' || c == '\n' || c == '\r'

/-- Drops the blanks at the front. -/
def dropGap (cs : List Char) : List Char := cs.dropWhile isGap

/-- Takes a word off the front of a text. -/
def takeWord? : (word cs : List Char) → Option (List Char)
  | [], cs => some cs
  | _ :: _, [] => none
  | w :: word, c :: cs => if w = c then takeWord? word cs else none

/-- The value of a hexadecimal digit. -/
def hexValue? (c : Char) : Option Nat :=
  if '0' ≤ c ∧ c ≤ '9' then some (c.toNat - 48)
  else if 'a' ≤ c ∧ c ≤ 'f' then some (c.toNat - 87)
  else if 'A' ≤ c ∧ c ≤ 'F' then some (c.toNat - 55)
  else none

/-- The code that four hexadecimal digits at the front give. -/
def takeCode? : List Char → Option (Nat × List Char)
  | a :: b :: c :: d :: rest =>
    match hexValue? a, hexValue? b, hexValue? c, hexValue? d with
    | some a, some b, some c, some d => some (((a * 16 + b) * 16 + c) * 16 + d, rest)
    | _, _, _, _ => none
  | _ => none

/-- The character that an escape of one letter stands for. -/
def letterEscape? : Char → Option Char
  | '"' => some '"'
  | '\\' => some '\\'
  | '/' => some '/'
  | 'b' => some '\x08'
  | 'f' => some '\x0c'
  | 'n' => some '\n'
  | 'r' => some '\r'
  | 't' => some '\t'
  | _ => none

/-- The character of two surrogates. -/
def pairedChar (high low : Nat) : Char :=
  Char.ofNat (0x10000 + (high - 0xD800) * 0x400 + (low - 0xDC00))

/-- The character of a code; half a pair has none and becomes the replacement character. -/
def codeChar (code : Nat) : Char :=
  if 0xD800 ≤ code ∧ code ≤ 0xDFFF then '\ufffd' else Char.ofNat code

/-- The character of an escape by number, given the text after its letter. -/
def takeNumberEscape? (cs : List Char) : Option (Char × List Char) :=
  match takeCode? cs with
  | none => none
  | some (code, rest) =>
    if 0xD800 ≤ code ∧ code ≤ 0xDBFF then
      match rest with
      | '\\' :: 'u' :: more =>
        match takeCode? more with
        | none => none
        | some (low, after) =>
          if 0xDC00 ≤ low ∧ low ≤ 0xDFFF then some (pairedChar code low, after)
          else some (codeChar code, rest)
      | _ => some (codeChar code, rest)
    else some (codeChar code, rest)

/-- The characters of a string after its opening quote. -/
def takeChars : (fuel : Nat) → List Char → Except ReadFault (List Char × List Char)
  | 0, _ => .error .malformed
  | fuel + 1, cs =>
    match cs with
    | [] => .error .malformed
    | '"' :: rest => .ok ([], rest)
    | '\\' :: 'u' :: rest =>
      match takeNumberEscape? rest with
      | none => .error .malformed
      | some (c, after) => do
        let (chars, after) ← takeChars fuel after
        return (c :: chars, after)
    | '\\' :: letter :: rest =>
      match letterEscape? letter with
      | none => .error .malformed
      | some c => do
        let (chars, after) ← takeChars fuel rest
        return (c :: chars, after)
    | c :: rest =>
      if c.toNat < 32 || c = '\\' then .error .malformed
      else do
        let (chars, after) ← takeChars fuel rest
        return (c :: chars, after)

/-- A string after its opening quote. -/
def takeString (cs : List Char) : Except ReadFault (String × List Char) := do
  let (chars, after) ← takeChars (cs.length + 1) cs
  return (String.ofList chars, after)

/-- The digits of a fraction, if one stands at the front. -/
def takeFraction? : List Char → Option (List Nat × List Char)
  | '.' :: rest =>
    match spanDigits rest with
    | ([], _) => none
    | found => some found
  | _ => none

/-- An exponent, if one stands at the front. -/
def takeExponent? : List Char → Option (Int × List Char)
  | c :: rest =>
    if c = 'e' || c = 'E' then
      let (negative, body) := takeSign rest
      match spanDigits body with
      | ([], _) => none
      | (digits, after) =>
        some (if negative then -(ofDigits digits : Int) else ofDigits digits, after)
    else none
  | [] => none

/-- The digits before the point: a zero alone, or a row that begins with another digit. -/
def takeWhole? : List Char → Option (List Nat × List Char)
  | '0' :: rest => some ([0], rest)
  | cs =>
    match spanDigits cs with
    | ([], _) => none
    | found => some found

/-- A number without its sign. -/
def takeUnsigned (negative : Bool) (cs : List Char) : Except ReadFault (Value × List Char) :=
  match takeWhole? cs with
  | none => .error .malformed
  | some (front, afterFront) =>
    let fraction := takeFraction? afterFront
    let afterFraction := (fraction.map (·.2)).getD afterFront
    let exponent := takeExponent? afterFraction
    let after := (exponent.map (·.2)).getD afterFraction
    if fraction.isNone && exponent.isNone then
      if digitLimit < front.length then .error (.tooManyDigits front.length)
      else .ok (.int (if negative then -(ofDigits front : Int) else ofDigits front), after)
    else
      let places := (fraction.map (·.1)).getD []
      let power := (exponent.map (·.1)).getD 0
      .ok (.float (.ofDecimal negative (ofDigits (front ++ places)) (power - places.length)), after)

/-- A number. -/
def takeNumber (cs : List Char) : Except ReadFault (Value × List Char) :=
  match cs with
  | '-' :: rest =>
    match takeWord? "Infinity".toList rest with
    | some after => .ok (.float (.infinite true), after)
    | none => takeUnsigned true rest
  | _ => takeUnsigned false cs

/-- The words that stand for values. -/
def words : List (List Char × Value) := [
  ("null".toList, .none),
  ("true".toList, .bool true),
  ("false".toList, .bool false),
  ("NaN".toList, .float .nan),
  ("Infinity".toList, .float (.infinite false))]

/-- A value that is a word, if one stands at the front. -/
def takeNamed? (cs : List Char) : Option (Value × List Char) :=
  words.findSome? fun (word, value) => (takeWord? word cs).map fun after => (value, after)

mutual

/-- A value at the front of a text. -/
def takeValue : (fuel : Nat) → List Char → Except ReadFault (Value × List Char)
  | 0, _ => .error .malformed
  | fuel + 1, cs =>
    match cs with
    | '"' :: rest => do
      let (s, after) ← takeString rest
      return (.str s, after)
    | '[' :: rest =>
      match dropGap rest with
      | ']' :: after => .ok (.list [], after)
      | inner => do
        let (items, after) ← takeItems fuel inner
        return (.list items, after)
    | '{' :: rest =>
      match dropGap rest with
      | '}' :: after => .ok (.dict [], after)
      | inner => do
        let (entries, after) ← takeEntries fuel inner
        return (Value.dictOf entries, after)
    | cs =>
      match takeNamed? cs with
      | some found => .ok found
      | none => takeNumber cs

/-- The items of an array from the first on, and its closing bracket. -/
def takeItems : (fuel : Nat) → List Char → Except ReadFault (List Value × List Char)
  | 0, _ => .error .malformed
  | fuel + 1, cs => do
    let (item, after) ← takeValue fuel cs
    match dropGap after with
    | ',' :: rest =>
      let (items, after) ← takeItems fuel (dropGap rest)
      return (item :: items, after)
    | ']' :: after => return ([item], after)
    | _ => .error .malformed

/-- The entries of an object from the first on, and its closing brace. -/
def takeEntries : (fuel : Nat) → List Char → Except ReadFault (List (Value × Value) × List Char)
  | 0, _ => .error .malformed
  | fuel + 1, cs =>
    match cs with
    | '"' :: rest => do
      let (key, after) ← takeString rest
      match dropGap after with
      | ':' :: rest =>
        let (value, after) ← takeValue fuel (dropGap rest)
        match dropGap after with
        | ',' :: rest =>
          let (entries, after) ← takeEntries fuel (dropGap rest)
          return ((.str key, value) :: entries, after)
        | '}' :: after => return ([(.str key, value)], after)
        | _ => .error .malformed
      | _ => .error .malformed
    | _ => .error .malformed

end

/-- A depth that no text has: each part takes characters off the text, or is the first of a row. -/
def depthOf (cs : List Char) : Nat := 2 * cs.length + 1

/-- The value that a text denotes. -/
def read (text : String) : Except ReadFault Value := do
  let cs := dropGap text.toList
  let (value, after) ← takeValue (depthOf cs) cs
  if (dropGap after).isEmpty then return value else .error .malformed

end FieldRules.Json
