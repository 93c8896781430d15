import FieldRules.Number.Binary64

/-! # The shortest decimal of a binary number

Of the decimals that round to a given magnitude, the one with the fewest digits, and of those
the nearest.  For each count of digits only the two neighbours of the magnitude on that decimal
grid are candidates: if any point of the grid rounds to the magnitude, one of these two does.
All comparisons are exact, in units of 2⁻¹⁰⁷⁶.
-/

namespace FieldRules.Number

/-- A decimal: the digits' value, and the power of ten of the last digit. -/
structure Decimal where
  digits : Nat
  exponent : Int
  deriving DecidableEq, Repr, Inhabited

namespace Decimal

/-- A decimal against a count of quarters, both brought to a common denominator. -/
def sides (d : Decimal) (quarters : Nat) : Nat × Nat :=
  if 0 ≤ d.exponent then (d.digits * tenTo d.exponent.toNat * twoTo 1076, quarters)
  else (d.digits * twoTo 1076, quarters * tenTo (-d.exponent).toNat)

/-- The digits as text. -/
def text (d : Decimal) : List Char := Nat.toDigits 10 d.digits

/-- Takes the zeros off the end of the digits, `fuel` at most. -/
def trimZeros (fuel : Nat) (d : Decimal) : Decimal :=
  match fuel with
  | 0 => d
  | fuel + 1 =>
    if d.digits ≠ 0 ∧ d.digits % 10 = 0 then trimZeros fuel ⟨d.digits / 10, d.exponent + 1⟩ else d

end Decimal

namespace Magnitude

/-- A quarter of a unit counts once. -/
def quarters (m : Magnitude) : Nat := 4 * m.units

/-- The quarters where the reals that round to the magnitude begin.  Below a power of two the
neighbour is only half as far. -/
def lowQuarters (m : Magnitude) : Nat :=
  let gap := if m.significand = twoTo 52 ∧ m.exponent ≠ 0 then 1 else 2
  (4 * m.significand - gap) * twoTo m.exponent

/-- The quarters where the reals that round to the magnitude end. -/
def highQuarters (m : Magnitude) : Nat := (4 * m.significand + 2) * twoTo m.exponent

/-- Whether a decimal rounds to the magnitude; the ends of the interval do when the significand
is even. -/
def isRoundedFrom (m : Magnitude) (d : Decimal) : Bool :=
  let low := Decimal.sides d m.lowQuarters
  let high := Decimal.sides d m.highQuarters
  if m.significand % 2 = 0 then low.2 ≤ low.1 && high.1 ≤ high.2
  else low.2 < low.1 && high.1 < high.2

/-- The distance of a decimal, on a scale shared by decimals of one exponent. -/
def distance (m : Magnitude) (d : Decimal) : Nat :=
  let (a, b) := Decimal.sides d m.quarters
  (a - b) + (b - a)

/-- The power of ten of the first digit of a positive magnitude. -/
def leadingExponent (m : Magnitude) : Int :=
  let guess : Int := ((m.units.log2 : Int) - 1074) * 30103 / 100000
  let reaches (k : Int) : Bool :=
    let (a, b) := Decimal.sides ⟨1, k⟩ m.quarters
    a ≤ b
  if !reaches guess then guess - 1 else if reaches (guess + 1) then guess + 1 else guess

/-- The greatest decimal with the given last place that is not above the magnitude. -/
def floorAt (m : Magnitude) (exponent : Int) : Nat :=
  if 0 ≤ exponent then m.quarters / (tenTo exponent.toNat * twoTo 1076)
  else m.quarters * tenTo (-exponent).toNat / twoTo 1076

/-- The nearer of the two neighbours on a decimal grid that rounds to the magnitude; a tie goes
to the even one. -/
def neighbourAt? (m : Magnitude) (exponent : Int) : Option Decimal :=
  let below : Decimal := ⟨m.floorAt exponent, exponent⟩
  let above : Decimal := ⟨below.digits + 1, exponent⟩
  match m.isRoundedFrom below, m.isRoundedFrom above with
  | true, true =>
    let near := m.distance below
    let far := m.distance above
    if near < far || (near = far && below.digits % 2 = 0) then some below else some above
  | true, false => some below
  | false, true => some above
  | false, false => none

/-- Looks for a decimal with the fewest digits, `remaining` more grids being left. -/
def shortestFrom (m : Magnitude) (leading : Int) : (remaining : Nat) → Decimal
  | 0 => ⟨m.floorAt (leading - 16), leading - 16⟩
  | remaining + 1 =>
    let exponent := leading - (16 - remaining : Int)
    match m.neighbourAt? exponent with
    | some d => d
    | none => shortestFrom m leading remaining

/-- The shortest decimal of a positive magnitude. -/
def shortest (m : Magnitude) : Decimal := shortestFrom m m.leadingExponent 17

end Magnitude

end FieldRules.Number
