import FieldRules.Number.Binary64
import FieldRules.Text.Numeral
import FieldRules.Text.Pieces

/-! # Number literals

Reading whole numbers and floating-point numbers from text.  Both first bring the text to ASCII
form, in which the decimal digits of any script count as digits and wide blanks as spaces; both
allow blanks around the number and single underscores between digits.
-/

namespace FieldRules.Number

open FieldRules.Text

/-- Why a text is no whole number. -/
inductive LiteralError where
  | malformed
  /-- The text has more digits than a conversion may take. -/
  | tooManyDigits (count : Nat)
  deriving DecidableEq, Repr

/-- The greatest number of digits in conversions between whole numbers and text. -/
def digitLimit : Nat := 4300

/-- The ASCII form of a character: wide digits become ASCII digits, wide blanks spaces, and
anything else beyond ASCII a mark that no literal contains. -/
def asciiForm (c : Char) : Char :=
  if c.toNat < 127 then c
  else if isWideBlank c then ' '
  else match digitValue? c with
    | some value => Char.ofNat (48 + value)
    | none => '?'

/-- The characters of a literal in ASCII form without the blanks at its ends. -/
def literalChars (cs : List Char) : List Char := trim isAsciiBlank (cs.map asciiForm)

/-- What stands before the present place of a row of digits. -/
inductive DigitContext where
  | start
  | afterDigit
  | afterUnderscore
  deriving DecidableEq

/-- A row of digits with single underscores between them: the values of the digits and the text
after the row.  None if an underscore is out of place. -/
def digitRow (context : DigitContext) : List Char → Option (List Nat × List Char)
  | [] => if context = .afterUnderscore then none else some ([], [])
  | c :: rest =>
    if c = '_' then
      if context = .afterDigit then digitRow .afterUnderscore rest else none
    else match asciiDigitValue? c with
      | some value =>
        (digitRow .afterDigit rest).map fun (values, after) => (value :: values, after)
      | none => if context = .afterUnderscore then none else some ([], c :: rest)

/-- The number with the given decimal digits. -/
def ofDigits (values : List Nat) : Nat := values.foldl (fun sum value => 10 * sum + value) 0

/-- Takes a sign off a text; true stands for minus. -/
def takeSign : List Char → Bool × List Char
  | '-' :: rest => (true, rest)
  | '+' :: rest => (false, rest)
  | cs => (false, cs)

/-- The whole number that a text denotes. -/
def readInteger (cs : List Char) : Except LiteralError Int :=
  let (negative, body) := takeSign (literalChars cs)
  match digitRow .start body with
  | none => .error .malformed
  | some (values, after) =>
    if digitLimit < values.length then .error (.tooManyDigits values.length)
    else if values.isEmpty || !after.isEmpty then .error .malformed
    else .ok (if negative then -(ofDigits values : Int) else ofDigits values)

/-- Takes out the underscores of a text, none if one does not stand between two digits. -/
def withoutUnderscores (previous : Option Char) : List Char → Option (List Char)
  | [] => some []
  | '_' :: rest =>
    match previous, rest with
    | some before, after :: _ =>
      if isAsciiDigit before && isAsciiDigit after then withoutUnderscores (some '_') rest else none
    | _, _ => none
  | c :: rest => (withoutUnderscores (some c) rest).map (c :: ·)

/-- The digits at the front of a text and the rest. -/
def spanDigits (cs : List Char) : List Nat × List Char :=
  ((cs.takeWhile isAsciiDigit).map (·.toNat - 48), cs.dropWhile isAsciiDigit)

/-- The part of a literal after the point; without a point it is empty. -/
def fractionDigits : List Char → List Nat × List Char
  | '.' :: rest => spanDigits rest
  | cs => ([], cs)

/-- An exponent that ends a literal; none if the text is neither empty nor an exponent. -/
def exponentValue? : List Char → Option Int
  | [] => some 0
  | c :: rest =>
    if c = 'e' || c = 'E' then
      let (negative, body) := takeSign rest
      let (values, after) := spanDigits body
      if values.isEmpty || !after.isEmpty then none
      else some (if negative then -(ofDigits values : Int) else ofDigits values)
    else none

/-- The words for the numbers that are not finite. -/
def namedNumber? (negative : Bool) (cs : List Char) : Option Binary64 :=
  let word := cs.map Char.toLower
  if word = ['i', 'n', 'f'] || word = ['i', 'n', 'f', 'i', 'n', 'i', 't', 'y'] then
    some (.infinite negative)
  else if word = ['n', 'a', 'n'] then some .nan
  else none

/-- The floating-point number that an unsigned literal denotes. -/
def readUnsigned? (negative : Bool) (cs : List Char) : Option Binary64 :=
  match namedNumber? negative cs with
  | some x => some x
  | none =>
    let (units, afterUnits) := spanDigits cs
    let (fraction, afterFraction) := fractionDigits afterUnits
    if units.isEmpty && fraction.isEmpty then none
    else (exponentValue? afterFraction).map fun exponent =>
      .ofDecimal negative (ofDigits (units ++ fraction)) (exponent - fraction.length)

/-- The floating-point number that a text denotes. -/
def readDecimal? (cs : List Char) : Option Binary64 :=
  (withoutUnderscores none (literalChars cs)).bind fun plain =>
    let (negative, body) := takeSign plain
    readUnsigned? negative body

end FieldRules.Number
