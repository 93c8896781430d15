import FieldRules.Number.Notation

/-! # Numbers

A number is a whole number of any size or a binary floating-point number.  The two kinds are
compared by their exact values.
-/

namespace FieldRules

/-- A number of either kind. -/
inductive Number where
  | whole (n : Int)
  | binary (x : Number.Binary64)
  deriving DecidableEq, Inhabited

namespace Number

/-- The place of a number on the line of the reals with both infinities; the finite ones are
counted in the least positive magnitude. -/
inductive Place where
  | lowest
  | finite (units : Int)
  | highest
  deriving DecidableEq

namespace Place

/-- The order of places. -/
def le : Place → Place → Bool
  | .lowest, _ => true
  | .finite _, .lowest => false
  | .finite a, .finite b => a ≤ b
  | .finite _, .highest => true
  | .highest, .highest => true
  | .highest, _ => false

end Place

/-- The place of a number, none for no number. -/
def place? : Number → Option Place
  | .whole n => some (.finite (n * twoTo 1074))
  | .binary (.finite negative m) =>
    some (.finite (if negative then -(m.units : Int) else m.units))
  | .binary (.infinite negative) => some (if negative then .lowest else .highest)
  | .binary .nan => none

/-- Whether two numbers have the same value. -/
def same (a b : Number) : Bool :=
  match a.place?, b.place? with
  | some p, some q => p = q
  | _, _ => false

/-- Whether a number is at most another. -/
def le (a b : Number) : Bool :=
  match a.place?, b.place? with
  | some p, some q => p.le q
  | _, _ => false

/-- Whether a number is less than another. -/
def lt (a b : Number) : Bool :=
  match a.place?, b.place? with
  | some p, some q => !q.le p
  | _, _ => false

end Number

end FieldRules
