import FieldRules.Fault

/-! # The order of values

Numbers are ordered by their exact values, texts by code points, bytes by octets, days and times
by the calendar, sequences by their first difference, and sets by inclusion.  Values of other
kinds, or of two different kinds, are not comparable.
-/

namespace FieldRules

namespace Comparison

/-- Whether the comparison holds of two things of which the first comes before, with, or after
the second. -/
def admits : Comparison → Ordering → Bool
  | .less, o => o == .lt
  | .atMost, o => o != .gt
  | .greater, o => o == .gt
  | .atLeast, o => o != .lt

/-- Whether the comparison holds of two numbers; it never holds of anything that is no number. -/
def holdsOfNumbers (comparison : Comparison) (a b : Number) : Bool :=
  match comparison with
  | .less => a.lt b
  | .atMost => a.le b
  | .greater => b.lt a
  | .atLeast => b.le a

end Comparison

/-- The order of two texts. -/
def textOrder : List Char → List Char → Ordering
  | [], [] => .eq
  | [], _ :: _ => .lt
  | _ :: _, [] => .gt
  | a :: as, b :: bs => if a = b then textOrder as bs else if a < b then .lt else .gt

/-- The order of two rows of bytes. -/
def octetOrder : List UInt8 → List UInt8 → Ordering
  | [], [] => .eq
  | [], _ :: _ => .lt
  | _ :: _, [] => .gt
  | a :: as, b :: bs => if a = b then octetOrder as bs else if a < b then .lt else .gt

/-- The order of two days. -/
def dayOrder (a b : Calendar.Date) : Ordering := compare a.ordinal b.ordinal

namespace Value

/-- Whether a comparison, by inclusion, holds of two sets. -/
def setsHold (comparison : Comparison) (xs ys : List Value) : Bool :=
  match comparison with
  | .less => itemsAmong xs ys && !itemsAmong ys xs
  | .atMost => itemsAmong xs ys
  | .greater => itemsAmong ys xs && !itemsAmong xs ys
  | .atLeast => itemsAmong ys xs

mutual

/-- Whether a comparison holds of two values. -/
def holds (comparison : Comparison) : Value → Value → Outcome Bool
  | .str s, .str t => .ok (comparison.admits (textOrder s.toList t.toList))
  | .bytes s, .bytes t => .ok (comparison.admits (octetOrder s t))
  | .list xs, .list ys => itemsHold comparison xs ys
  | .tuple xs, .tuple ys => itemsHold comparison xs ys
  | .set xs, .set ys => .ok (setsHold comparison xs ys)
  | .date d, .date e => .ok (comparison.admits (dayOrder d e))
  | .date _, .datetime _ | .datetime _, .date _ => .error .dayWithTime
  | .datetime t, .datetime u =>
    if t.offset.isSome = u.offset.isSome then
      .ok (comparison.admits (compare t.universalMicroseconds u.universalMicroseconds))
    else .error .offsetMismatch
  | x, y =>
    match x.number?, y.number? with
    | some a, some b => .ok (comparison.holdsOfNumbers a b)
    | _, _ => .error (.incomparable comparison x.qualifiedTypeName y.qualifiedTypeName)

/-- Whether a comparison holds of two sequences: their first items that differ decide, or
their lengths if none do. -/
def itemsHold (comparison : Comparison) : List Value → List Value → Outcome Bool
  | [], [] => .ok (comparison.admits .eq)
  | [], _ :: _ => .ok (comparison.admits .lt)
  | _ :: _, [] => .ok (comparison.admits .gt)
  | x :: xs, y :: ys => if same x y then itemsHold comparison xs ys else holds comparison x y

end

end Value

end FieldRules
