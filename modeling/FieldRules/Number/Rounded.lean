import FieldRules.Number.Notation

/-! # Numbers with a given count of digits

Floating-point numbers written with a fixed number of places, with an exponent, or in the shorter
of both ways.  The value is rounded once, from its exact value, and a half goes to the even
neighbour.
-/

namespace FieldRules.Number

namespace Magnitude

/-- The magnitude in units of the last of so many decimal places. -/
def atPlaces (m : Magnitude) (places : Nat) : Nat := roundDiv (m.units * tenTo places) (twoTo 1074)

/-- The magnitude in units of a power of ten. -/
def atPower (m : Magnitude) (power : Int) : Nat :=
  if 0 ≤ power then roundDiv m.units (twoTo 1074 * tenTo power.toNat)
  else roundDiv (m.units * tenTo (-power).toNat) (twoTo 1074)

/-- The first `count` significant digits and the power of ten of the first of them. -/
def significantDigits (m : Magnitude) (count : Nat) : List Char × Int :=
  if m.significand = 0 then (List.replicate count '0', 0)
  else
    let leading := m.leadingExponent
    let digits := Nat.toDigits 10 (m.atPower (leading - (count - 1)))
    if count < digits.length then (digits.take count, leading + 1) else (digits, leading)

end Magnitude

/-- The ways to write a magnitude. -/
inductive Style where
  /-- With so many places. -/
  | fixed (places : Nat)
  /-- With an exponent and so many places. -/
  | exponent (places : Nat)
  /-- With so many significant digits, less the zeros at the end, by whichever way is shorter;
  `isWhole` asks for a place after the point. -/
  | general (digits : Nat) (isWhole : Bool)
  /-- As few digits as identify the number. -/
  | shortest
  deriving DecidableEq, Repr

/-- Drops the zeros at the end of a row of digits, except the first digit. -/
def withoutEndZeros (digits : List Char) : List Char :=
  match (digits.reverse.dropWhile (· == '0')).reverse with
  | [] => digits.take 1
  | kept => kept

/-- A sign and two digits at least. -/
def signedExponent (exponent : Int) : List Char :=
  (if exponent < 0 then '-' else '+') ::
    Layout.zeroPadded 2 (Nat.toDigits 10 exponent.natAbs)

/-- Digits with a point behind the first `count` of them; a point at the end is kept only when it
is asked for. -/
def pointed (keepPoint : Bool) (count : Nat) (digits : List Char) : List Char :=
  match digits.drop count with
  | [] => digits ++ (if keepPoint then ['.'] else [])
  | places => digits.take count ++ '.' :: places

/-- Digits of a number below ten, with their exponent. -/
def withExponent (keepPoint : Bool) (digits : List Char) (exponent : Int) : List Char :=
  pointed keepPoint 1 digits ++ 'e' :: signedExponent exponent

/-- Digits laid out positionally, with the power of ten of the first of them. -/
def placed (keepPoint isWhole : Bool) (digits : List Char) (exponent : Int) : List Char :=
  if exponent < 0 then
    pointed keepPoint 1 (List.replicate (-exponent).toNat '0' ++ digits)
  else
    let count := exponent.toNat + 1
    let least := if isWhole then count + 1 else count
    pointed keepPoint count (digits ++ List.replicate (least - digits.length) '0')

/-- The text of a magnitude. -/
def Magnitude.styled (m : Magnitude) (keepPoint : Bool) : Style → List Char
  | .fixed places =>
    let digits := Layout.zeroPadded (places + 1) (Nat.toDigits 10 (m.atPlaces places))
    pointed keepPoint (digits.length - places) digits
  | .exponent places =>
    let (digits, exponent) := m.significantDigits (places + 1)
    withExponent keepPoint digits exponent
  | .general count isWhole =>
    let count := max count 1
    let (digits, exponent) := m.significantDigits count
    let most : Int := if isWhole then (count : Int) - 1 else count
    let kept := if keepPoint then digits else withoutEndZeros digits
    if exponent + 1 ≤ -4 || most < exponent + 1 then withExponent keepPoint kept exponent
    else placed keepPoint isWhole kept exponent
  | .shortest =>
    let text := Binary64.plainLayout.magnitudeText m
    if keepPoint && !text.contains '.' then
      text.takeWhile (· != 'e') ++ '.' :: text.dropWhile (· != 'e')
    else text

/-- Whether a text shows no digit but zero. -/
def showsZero (cs : List Char) : Bool := (cs.takeWhile (· != 'e')).all fun c => c == '0' || c == '.'

namespace Binary64

/-- The sign and the text of a number; `clearZero` takes the sign off a result of zero. -/
def styled (x : Binary64) (keepPoint clearZero : Bool) (style : Style) : Bool × List Char :=
  match x with
  | .nan => (false, ['n', 'a', 'n'])
  | .infinite negative => (negative, ['i', 'n', 'f'])
  | .finite negative m =>
    let text := m.styled keepPoint style
    (negative && !(clearZero && showsZero text), text)

/-- A hundred times a number. -/
def hundredfold : Binary64 → Binary64
  | .finite negative m => .ofRatio negative (m.units * 100) (twoTo 1074)
  | x => x

end Binary64

end FieldRules.Number
