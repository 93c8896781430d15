import FieldRules.Number.Literal
import FieldRules.Number.Power

/-! # Universally unique identifiers

An identifier is a number of 128 bits in hexadecimal.  Its text may carry the words `urn:` and
`uuid:`, braces around it, and hyphens anywhere; 32 characters must be left, which may be any
literal of a number in base sixteen.
-/

namespace FieldRules.Format.Uuid

open FieldRules.Text FieldRules.Number

/-- A text without the occurrences of a word, found from the left, in a text shorter than
`fuel`. -/
def withoutWordIn (word : List Char) : (fuel : Nat) → List Char → List Char
  | 0, cs => cs
  | _ + 1, [] => []
  | fuel + 1, c :: rest =>
    if word.isPrefixOf (c :: rest) then withoutWordIn word fuel ((c :: rest).drop word.length)
    else c :: withoutWordIn word fuel rest

/-- A text without the occurrences of a word. -/
def withoutWord (word : String) (cs : List Char) : List Char :=
  withoutWordIn word.toList (cs.length + 1) cs

/-- The characters of the number in the text of an identifier. -/
def numberChars (cs : List Char) : List Char :=
  (trim (fun c => c == '\x7b' || c == '\x7d') (withoutWord "uuid:" (withoutWord "urn:" cs))).filter
    (· != '-')

/-- The value of a hexadecimal digit. -/
def hexValue? (c : Char) : Option Nat :=
  if isAsciiDigit c then some (c.toNat - 48)
  else if 'a' ≤ c.toLower ∧ c.toLower ≤ 'f' then some (c.toLower.toNat - 87)
  else none

/-- The number of a row of hexadecimal digits with single underscores between them; `sum` is the
number of the digits before, and `afterDigit` tells whether one stands just before. -/
def hexRow? (sum : Nat) (afterDigit : Bool) : List Char → Option Nat
  | [] => if afterDigit then some sum else none
  | c :: rest =>
    if c = '_' then (if afterDigit then hexRow? sum false rest else none)
    else match hexValue? c with
      | some value => hexRow? (16 * sum + value) true rest
      | none => none

/-- Takes the mark of base sixteen off a text, with one underscore after it. -/
def withoutBaseMark : List Char → List Char
  | '0' :: x :: rest =>
    if x = 'x' || x = 'X' then
      match rest with
      | '_' :: rest => rest
      | rest => rest
    else '0' :: x :: rest
  | cs => cs

/-- The number that a literal in base sixteen denotes, unless it is negative. -/
def hexLiteral? (cs : List Char) : Option Nat :=
  match takeSign (literalChars cs) with
  | (negative, body) =>
    match hexRow? 0 false (withoutBaseMark body) with
    | some n => if negative && n != 0 then none else some n
    | none => none

/-- The number that the text of an identifier denotes. -/
def read? (s : String) : Option Nat :=
  let cs := numberChars s.toList
  if cs.length = 32 then (hexLiteral? cs).filter (· < Number.twoTo 128) else none

/-- The version of an identifier; only the variant of the standard has versions. -/
def version? (n : Nat) : Option Nat :=
  if n.testBit 63 && !n.testBit 62 then some (n / Number.twoTo 76 % 16) else none

end FieldRules.Format.Uuid
