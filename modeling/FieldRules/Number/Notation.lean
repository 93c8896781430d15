import FieldRules.Number.Shortest

/-! # Writing floating-point numbers

The shortest digits of a number are laid out positionally or with an exponent, according to
where the decimal point stands among them.
-/

namespace FieldRules.Number

/-- How floating-point numbers are written. -/
structure Layout where
  /-- Numbers with more digits before the point than this have an exponent. -/
  mostWhole : Int
  /-- Numbers with more zeros after the point than this have an exponent. -/
  mostZeros : Int
  /-- Whether a positive exponent has a sign. -/
  plusExponent : Bool
  /-- The least number of digits of an exponent. -/
  exponentDigits : Nat
  nan : String
  infinity : String

namespace Layout

/-- Zeros before a text up to a width. -/
def zeroPadded (width : Nat) (cs : List Char) : List Char :=
  List.replicate (width - cs.length) '0' ++ cs

/-- The exponent part of a number. -/
def exponentText (layout : Layout) (exponent : Int) : List Char :=
  let sign := if exponent < 0 then ['-'] else if layout.plusExponent then ['+'] else []
  'e' :: sign ++ zeroPadded layout.exponentDigits (Nat.toDigits 10 exponent.natAbs)

/-- Digits with the point after the first `whole` of them. -/
def positional (digits : List Char) (whole : Int) : List Char :=
  if whole ≤ 0 then '0' :: '.' :: List.replicate (-whole).toNat '0' ++ digits
  else
    let count := whole.toNat
    if digits.length ≤ count then
      digits ++ List.replicate (count - digits.length) '0' ++ ['.', '0']
    else digits.take count ++ '.' :: digits.drop count

/-- Digits with the point after the first of them and an exponent. -/
def scientific (layout : Layout) (digits : List Char) (whole : Int) : List Char :=
  let mantissa := match digits with
    | first :: second :: rest => first :: '.' :: second :: rest
    | digits => digits
  mantissa ++ layout.exponentText (whole - 1)

/-- The text of a magnitude. -/
def magnitudeText (layout : Layout) (m : Magnitude) : List Char :=
  if m.significand = 0 then ['0', '.', '0']
  else
    let shortest := m.shortest.trimZeros 20
    let digits := shortest.text
    let whole := (digits.length : Int) + shortest.exponent
    if layout.mostWhole < whole || whole < -layout.mostZeros then layout.scientific digits whole
    else positional digits whole

/-- The text of a number. -/
def text (layout : Layout) : Binary64 → String
  | .nan => layout.nan
  | .infinite negative => (if negative then "-" else "") ++ layout.infinity
  | .finite negative m =>
    String.ofList ((if negative then ['-'] else []) ++ layout.magnitudeText m)

end Layout

namespace Binary64

/-- Values are printed positionally below 10¹⁶ and from 10⁻⁴ on, and with an exponent of a sign
and two digits at least elsewhere. -/
def plainLayout : Layout where
  mostWhole := 16
  mostZeros := 3
  plusExponent := true
  exponentDigits := 2
  nan := "nan"
  infinity := "inf"

/-- The text of a number as a value. -/
def text (x : Binary64) : String := plainLayout.text x

end Binary64

end FieldRules.Number
