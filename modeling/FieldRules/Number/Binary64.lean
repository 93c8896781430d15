import FieldRules.Number.Power

/-! # Binary floating point

Numbers of 53 significant binary digits, held exactly.  A finite magnitude is a significand
times a power of two, counted in the least positive magnitude, 2⁻¹⁰⁷⁴; every magnitude has one
such form.  A quotient of natural numbers is rounded to the nearest magnitude, a tie to the even
significand, and overflows beyond the greatest.
-/

namespace FieldRules.Number

/-- A quotient to the nearest natural number, a half to the even one. -/
def roundDiv (num den : Nat) : Nat :=
  let quotient := num / den
  let remainder := num % den
  if 2 * remainder < den then quotient
  else if den < 2 * remainder then quotient + 1
  else quotient + quotient % 2

theorem div_le_roundDiv (num den : Nat) : num / den ≤ roundDiv num den := by
  simp only [roundDiv]; split
  · exact Nat.le_refl _
  · split <;> omega

theorem roundDiv_le_succ (num den : Nat) : roundDiv num den ≤ num / den + 1 := by
  simp only [roundDiv]; split
  · omega
  · split
    · omega
    · have := Nat.mod_lt (num / den) (show 2 > 0 by decide); omega

/-- A finite magnitude, `significand * 2 ^ exponent` times the least positive one.  The
significand fills its 53 digits unless the exponent is the least. -/
structure Magnitude where
  significand : Nat
  exponent : Nat
  significand_lt : significand < twoTo 53
  exponent_le : exponent ≤ 2045
  full : exponent = 0 ∨ twoTo 52 ≤ significand
  deriving DecidableEq

namespace Magnitude

instance : Inhabited Magnitude := ⟨⟨0, 0, by decide, by decide, .inl rfl⟩⟩

/-- The magnitude zero. -/
def nil : Magnitude := ⟨0, 0, by decide, by decide, .inl rfl⟩

/-- How many times the least positive magnitude it is. -/
def units (m : Magnitude) : Nat := m.significand * twoTo m.exponent

/-- The binary places by which a count of units exceeds 53 digits. -/
def excess (units : Nat) : Nat := units.log2 - 52

theorem div_excess_lt (units : Nat) : units / twoTo (excess units) < twoTo 53 := by
  rw [Nat.div_lt_iff_lt_mul (twoTo_pos _), ← twoTo_add]
  exact Nat.lt_of_lt_of_le (lt_twoTo_log2_succ units)
    (twoTo_le_twoTo (by unfold excess; omega))

theorem le_div_excess (units : Nat) :
    excess units = 0 ∨ twoTo 52 ≤ units / twoTo (excess units) := by
  by_cases h : units.log2 ≤ 52
  · exact .inl (by unfold excess; omega)
  · refine .inr ?_
    rw [Nat.le_div_iff_mul_le (twoTo_pos _), ← twoTo_add]
    have hne : units ≠ 0 := by rintro rfl; simp at h
    have : 52 + excess units = units.log2 := by unfold excess; omega
    rw [this]
    exact twoTo_log2_le hne

/-- The nearest magnitude to a quotient, none beyond the greatest. -/
def ofRatio? (num den : Nat) : Option Magnitude :=
  let scaled := num * twoTo 1074
  let exponent := excess (scaled / den)
  let significand := roundDiv scaled (den * twoTo exponent)
  have bounds : significand ≤ twoTo 53 ∧ (exponent = 0 ∨ twoTo 52 ≤ significand) := by
    have h : scaled / den / twoTo exponent < twoTo 53 := div_excess_lt _
    have h' : exponent = 0 ∨ twoTo 52 ≤ scaled / den / twoTo exponent := le_div_excess _
    rw [Nat.div_div_eq_div_mul] at h h'
    have := roundDiv_le_succ scaled (den * twoTo exponent)
    have := div_le_roundDiv scaled (den * twoTo exponent)
    refine ⟨by omega, h'.imp id fun h'' => by omega⟩
  if carried : significand = twoTo 53 then
    if fits : exponent + 1 ≤ 2045 then
      some ⟨twoTo 52, exponent + 1, by decide, fits, .inr (Nat.le_refl _)⟩
    else none
  else if fits : exponent ≤ 2045 then
    some ⟨significand, exponent, by omega, fits, bounds.2⟩
  else none

end Magnitude

/-- A binary floating-point number: a signed finite magnitude, a signed infinity, or no
number. -/
inductive Binary64 where
  | finite (negative : Bool) (magnitude : Magnitude)
  | infinite (negative : Bool)
  | nan
  deriving DecidableEq, Inhabited

namespace Binary64

/-- The nearest number to a signed quotient. -/
def ofRatio (negative : Bool) (num den : Nat) : Binary64 :=
  match Magnitude.ofRatio? num den with
  | some m => .finite negative m
  | none => .infinite negative

/-- The nearest number to `digits * 10 ^ exponent`.  Exponents that settle the outcome on
their own do so before any power is taken. -/
def ofDecimal (negative : Bool) (digits : Nat) (exponent : Int) : Binary64 :=
  if digits = 0 then .finite negative .nil
  else
    let places : Int := (Nat.toDigits 10 digits).length
    if 400 < places + exponent then .infinite negative
    else if places + exponent < -400 then .finite negative .nil
    else if 0 ≤ exponent then ofRatio negative (digits * tenTo exponent.toNat) 1
    else ofRatio negative digits (tenTo (-exponent).toNat)

/-- How many times the least positive magnitude a finite number is. -/
def units : Binary64 → Option Int
  | .finite negative m => some (if negative then -(m.units : Int) else m.units)
  | _ => none

/-- The whole part of a finite number, cut toward zero. -/
def truncated : Binary64 → Option Int
  | .finite negative m =>
    let whole : Int := (m.units / twoTo 1074 : Nat)
    some (if negative then -whole else whole)
  | _ => none

/-- The value of a finite number without a fraction. -/
def wholeValue? : Binary64 → Option Int
  | .finite negative m =>
    if m.units % twoTo 1074 = 0 then (Binary64.finite negative m).truncated else none
  | _ => none

/-- Whether it is one of the two zeros. -/
def isZero : Binary64 → Bool
  | .finite _ m => m.significand = 0
  | _ => false

end Binary64

end FieldRules.Number
