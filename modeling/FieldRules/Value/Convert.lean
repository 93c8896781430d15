import FieldRules.Fault

/-! # Values as numbers

The numbers that values can stand for: numbers stand for themselves, and texts and bytes for the
number that they denote.
-/

namespace FieldRules

open Number

/-- The nearest floating-point number to a whole number, unless it is beyond the greatest. -/
def binaryOfInteger (n : Int) : Outcome Binary64 :=
  match Magnitude.ofRatio? n.natAbs 1 with
  | some m => .ok (.finite (n < 0) m)
  | none => .error .integerToFloat

/-- The whole part of a floating-point number. -/
def integerOfBinary : Binary64 → Outcome Int
  | .nan => .error .nanToInteger
  | .infinite _ => .error .infinityToInteger
  | x => .ok (x.truncated.getD 0)

/-- Bytes as characters, octets beyond ASCII as a mark that no literal contains. -/
def octetChars (octets : List UInt8) : List Char :=
  octets.map fun octet => if octet < 128 then Char.ofNat octet.toNat else '?'

/-- The result of reading a whole number from a value. -/
def integerRead (value : Value) : Except LiteralError Int → Outcome Int
  | .ok n => .ok n
  | .error .malformed => .error (.noInteger value)
  | .error (.tooManyDigits count) => .error (.tooManyDigits count)

namespace Value

/-- The whole number that a value stands for; fractions are cut off. -/
def toInteger : Value → Outcome Int
  | .bool b => .ok (if b then 1 else 0)
  | .int n => .ok n
  | .float x => integerOfBinary x
  | .str s => integerRead (.str s) (readInteger s.toList)
  | .bytes octets => integerRead (.bytes octets) (readInteger (octetChars octets))
  | value => .error (.notInteger value.qualifiedTypeName)

/-- The floating-point number that a value stands for. -/
def toBinary : Value → Outcome Binary64
  | .bool b => binaryOfInteger (if b then 1 else 0)
  | .int n => binaryOfInteger n
  | .float x => .ok x
  | .str s =>
    match readDecimal? s.toList with
    | some x => .ok x
    | Option.none => .error (.noDecimal (.str s))
  | .bytes octets =>
    match readDecimal? (octetChars octets) with
    | some x => .ok x
    | Option.none => .error (.noDecimal (.bytes octets))
  | value => .error (.notDecimal value.qualifiedTypeName)

/-- The number that a value stands for as a bound: a number is kept as it is, anything else is
read as a floating-point number, which becomes a whole number if it has no fraction. -/
def toBound : Value → Outcome Number
  | .int n => .ok (.whole n)
  | .float x => .ok (.binary x)
  | value => do
    let x ← value.toBinary
    match x.wholeValue? with
    | some n => return .whole n
    | Option.none => return .binary x

end Value

end FieldRules
