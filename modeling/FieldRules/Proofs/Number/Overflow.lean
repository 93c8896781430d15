import FieldRules.Number.Binary64

/-! # Whole numbers beyond floating point

The greatest finite magnitude is `2 ^ 1024 - 2 ^ 971`. Whole numbers less than half a last place
above it are still rounded down to it; from `2 ^ 1024 - 2 ^ 970` on, the tie included, there is no
magnitude.
-/

namespace FieldRules.Number

theorem roundDiv_mul {factor : Nat} (some : 0 < factor) (num den : Nat) :
    roundDiv (num * factor) (den * factor) = roundDiv num den := by
  have quotient : num * factor / (den * factor) = num / den := Nat.mul_div_mul_right _ _ some
  have remainder : num * factor % (den * factor) = num % den * factor := Nat.mul_mod_mul_right ..
  have below : 2 * (num % den * factor) < den * factor ↔ 2 * (num % den) < den := by
    rw [← Nat.mul_assoc, Nat.mul_lt_mul_right some]
  have above : den * factor < 2 * (num % den * factor) ↔ den < 2 * (num % den) := by
    rw [← Nat.mul_assoc, Nat.mul_lt_mul_right some]
  simp only [roundDiv, quotient, remainder, below, above]

theorem log2_mul_twoTo {n : Nat} (some : n ≠ 0) (shift : Nat) :
    (n * twoTo shift).log2 = n.log2 + shift := by
  have positive : n * twoTo shift ≠ 0 := Nat.mul_ne_zero some (Nat.ne_of_gt (twoTo_pos shift))
  refine (Nat.log2_eq_iff positive).mpr ⟨?_, ?_⟩
  · calc 2 ^ (n.log2 + shift) = twoTo n.log2 * twoTo shift := twoTo_add _ _
      _ ≤ n * twoTo shift := Nat.mul_le_mul_right _ (twoTo_log2_le some)
  · calc n * twoTo shift < twoTo (n.log2 + 1) * twoTo shift :=
          Nat.mul_lt_mul_of_pos_right (lt_twoTo_log2_succ n) (twoTo_pos shift)
      _ = 2 ^ (n.log2 + shift + 1) := by
          rw [← twoTo_add, Nat.add_right_comm]
          rfl

/-- In the last row of magnitudes the significand carries from the tie above the greatest on. -/
theorem roundDiv_carries {n half : Nat} (below : n < twoTo 54 * half) :
    roundDiv n (2 * half) = twoTo 53 ↔ twoTo 54 * half - half ≤ n := by
  have limit : twoTo 53 = 9007199254740992 := rfl
  have double : twoTo 54 = 18014398509481984 := rfl
  rw [double] at below ⊢
  rw [limit]
  have parts : 2 * half * (n / (2 * half)) + n % (2 * half) = n := Nat.div_add_mod ..
  have some : 0 < 2 * half := by omega
  have rest : n % (2 * half) < 2 * half := Nat.mod_lt n some
  have quotient : n / (2 * half) < 9007199254740992 := by
    rw [Nat.div_lt_iff_lt_mul some]
    omega
  simp only [roundDiv]
  generalize n / (2 * half) = q at parts quotient ⊢
  generalize n % (2 * half) = r at parts rest ⊢
  -- Only from the last significand, and from its half on, is anything carried.
  by_cases last : q = 9007199254740991
  · subst last
    split
    · omega
    · split <;> omega
  · have lower : 2 * half * q ≤ 2 * half * 9007199254740990 := Nat.mul_le_mul_left _ (by omega)
    split
    · omega
    · split <;> omega

theorem Magnitude.ofRatio?_eq_none {num den : Nat} :
    ofRatio? num den = none ↔
      2045 < excess (num * twoTo 1074 / den) ∨ excess (num * twoTo 1074 / den) = 2045 ∧
        roundDiv (num * twoTo 1074) (den * twoTo 2045) = twoTo 53 := by
  simp only [ofRatio?]
  by_cases edge : excess (num * twoTo 1074 / den) = 2045
  · simp only [edge]
    split <;> simp_all
  · split <;> split <;> simp <;> omega

theorem Magnitude.ofRatio?_whole {n : Nat} :
    ofRatio? n 1 = none ↔ twoTo 1024 - twoTo 970 ≤ n := by
  have unit : twoTo 1024 = twoTo 54 * twoTo 970 := twoTo_add 54 970
  have one : twoTo 1 = 2 := rfl
  have far : twoTo 1023 < twoTo 1024 - twoTo 970 := by
    have double : twoTo 1024 = twoTo 1 * twoTo 1023 := twoTo_add 1 1023
    have part : twoTo 1023 = twoTo 53 * twoTo 970 := twoTo_add 53 970
    have many : twoTo 53 = 9007199254740992 := rfl
    have some := twoTo_pos 970
    rw [one] at double
    rw [many] at part
    omega
  rw [ofRatio?_eq_none, Nat.div_one, Nat.one_mul]
  by_cases zero : n = 0
  · subst zero
    simp [excess]
    omega
  have exponent : excess (n * twoTo 1074) = n.log2 + 1022 := by
    rw [excess, log2_mul_twoTo zero]
    omega
  have lower := twoTo_log2_le zero
  have upper := lt_twoTo_log2_succ n
  rw [exponent]
  -- What counts is how many rows of magnitudes `n` lies above the first.
  rcases Nat.lt_trichotomy n.log2 1023 with small | edge | great
  · have : twoTo (n.log2 + 1) ≤ twoTo 1023 := twoTo_le_twoTo (by omega)
    omega
  · have scaled : roundDiv (n * twoTo 1074) (twoTo 2045) = roundDiv n (2 * twoTo 970) := by
      have last : twoTo 2045 = twoTo 971 * twoTo 1074 := twoTo_add 971 1074
      have carry : twoTo 971 = twoTo 1 * twoTo 970 := twoTo_add 1 970
      rw [last, roundDiv_mul (twoTo_pos 1074), carry, one]
    have below : n < twoTo 54 * twoTo 970 := by rwa [edge, unit] at upper
    have carries := roundDiv_carries below
    rw [edge, scaled, unit]
    exact ⟨fun found => carries.mp (found.resolve_left (by omega)).2,
      fun found => .inr ⟨rfl, carries.mpr found⟩⟩
  · have : twoTo 1024 ≤ twoTo n.log2 := twoTo_le_twoTo (by omega)
    omega

end FieldRules.Number
