import FieldRules.Proofs.Number.Overflow
import FieldRules.Value.Convert
import Mathlib.Algebra.Group.Nat.Defs
import Mathlib.Data.List.TakeWhile

/-! # The nearest number to a whole number

A whole number that is written in decimal is read as the nearest floating-point number. Up to the
greatest of these the outcome is whole again: the number itself to 53 binary digits. So it is kept
just if its binary digits behind the first 53 are zeros, and if it is not beyond the greatest.
-/

namespace FieldRules

open Text

namespace Number

/-! ## To 53 binary digits -/

/-- The last of 53 binary places of a whole number. -/
def lastPlace (n : Nat) : Nat := twoTo (n.log2 - 52)

/-- A whole number to 53 binary digits, a half to the even one. -/
def nearest (n : Nat) : Nat := roundDiv n (lastPlace n) * lastPlace n

/-- What has the value of a whole number in floating point, an infinity if nothing has. -/
def rounded (n : Int) : Number :=
  if n.natAbs < twoTo 1024 - twoTo 970 then .whole (n.sign * nearest n.natAbs)
  else .binary (.infinite (n < 0))

/-- A whole number that is a floating-point number. -/
def IsBinary (n : Int) : Prop :=
  ∃ significand exponent, significand < 2 ^ 53 ∧ exponent ≤ 971 ∧
    n.natAbs = significand * 2 ^ exponent

theorem roundDiv_dvd {n place : Nat} (some : 0 < place) :
    roundDiv n place * place = n ↔ place ∣ n := by
  constructor
  · intro kept
    exact ⟨roundDiv n place, by rw [Nat.mul_comm, kept]⟩
  · rintro ⟨count, rfl⟩
    have whole : roundDiv (place * count) place = count := by
      simp [roundDiv, Nat.mul_div_cancel_left count some, some]
    rw [whole, Nat.mul_comm]

theorem nearest_eq_self {n : Nat} : nearest n = n ↔ lastPlace n ∣ n :=
  roundDiv_dvd (twoTo_pos _)

theorem log2_lt_iff {n count : Nat} (some : n ≠ 0) : n.log2 < count ↔ n < twoTo count :=
  Nat.log2_lt some

/-- The last place divides a number that has at most 53 binary digits and zeros behind them. -/
theorem lastPlace_dvd_mul {significand : Nat} (digits : significand < twoTo 53) (exponent : Nat) :
    lastPlace (significand * twoTo exponent) ∣ significand * twoTo exponent := by
  by_cases zero : significand = 0
  · simp [zero]
  have length : (significand * twoTo exponent).log2 < 53 + exponent := by
    rw [log2_lt_iff (Nat.mul_ne_zero zero (Nat.ne_of_gt (twoTo_pos exponent))), twoTo_add]
    exact Nat.mul_lt_mul_of_pos_right digits (twoTo_pos exponent)
  exact Nat.dvd_trans (Nat.pow_dvd_pow 2 (by omega)) (Nat.dvd_mul_left _ significand)

theorem isBinary_iff {n : Int} :
    IsBinary n ↔ lastPlace n.natAbs ∣ n.natAbs ∧ n.natAbs < twoTo 1024 - twoTo 970 := by
  have great : twoTo 1024 = twoTo 53 * twoTo 971 := twoTo_add 53 971
  have unit : twoTo 971 = twoTo 1 * twoTo 970 := twoTo_add 1 970
  have one : twoTo 1 = 2 := rfl
  have limit : twoTo 53 = 9007199254740992 := rfl
  have some := twoTo_pos 970
  rw [one] at unit
  constructor
  · rintro ⟨significand, exponent, digits, small, same⟩
    replace same : n.natAbs = significand * twoTo exponent := same
    replace digits : significand < twoTo 53 := digits
    refine ⟨by rw [same]; exact lastPlace_dvd_mul digits exponent, ?_⟩
    have most : n.natAbs ≤ (twoTo 53 - 1) * twoTo 971 := by
      rw [same]
      exact Nat.mul_le_mul (Nat.le_sub_one_of_lt digits) (twoTo_le_twoTo small)
    rw [limit] at most great
    omega
  · rintro ⟨⟨significand, same⟩, fits⟩
    rw [Nat.mul_comm] at same
    refine ⟨significand, n.natAbs.log2 - 52, ?_, ?_, same⟩
    · have digits : n.natAbs / lastPlace n.natAbs < twoTo 53 := Magnitude.div_excess_lt n.natAbs
      have quotient : n.natAbs / lastPlace n.natAbs = significand :=
        Nat.div_eq_of_eq_mul_left (twoTo_pos _) same
      rwa [quotient] at digits
    · by_cases zero : n.natAbs = 0
      · simp [zero]
      have below : n.natAbs < twoTo 1024 := Nat.lt_of_lt_of_le fits (Nat.sub_le _ _)
      have length := (log2_lt_iff zero).mpr below
      omega

theorem sign_mul_nearest {n : Int} :
    n.sign * nearest n.natAbs = n ↔ nearest n.natAbs = n.natAbs := by
  constructor
  · intro kept
    by_cases zero : n = 0
    · subst zero
      rfl
    · have sizes := congrArg Int.natAbs kept
      simpa [Int.natAbs_mul, Int.natAbs_sign_of_ne_zero zero] using sizes
  · intro kept
    rw [kept, Int.sign_mul_natAbs]

/-- Rounding keeps just what is a floating-point number. -/
theorem rounded_eq_self {n : Int} : rounded n = .whole n ↔ IsBinary n := by
  rw [isBinary_iff, ← nearest_eq_self, ← sign_mul_nearest, rounded]
  split
  · simp [*]
  · simp [*]

theorem rounded_whole_or_infinite (n : Int) :
    (∃ m, rounded n = .whole m) ∨ rounded n = .binary (.infinite (n < 0)) := by
  unfold rounded
  split
  · exact .inl ⟨_, rfl⟩
  · exact .inr rfl

/-- Up to 53 binary digits nothing is lost. -/
theorem IsBinary.ofSmall {n : Int} (small : n.natAbs < 2 ^ 53) : IsBinary n :=
  ⟨n.natAbs, 0, small, by omega, by omega⟩

/-! ## The magnitude of a whole number -/

theorem Magnitude.ofRatio?_units {num den : Nat} {m : Magnitude}
    (found : ofRatio? num den = some m) :
    let place := twoTo (excess (num * twoTo 1074 / den))
    m.units = roundDiv (num * twoTo 1074) (den * place) * place := by
  simp only [ofRatio?] at found
  split at found
  · rename_i carried
    split at found
    · obtain rfl := Option.some.inj found
      -- A carry moves the point by one place.
      have carry : twoTo 52 * twoTo 1 = twoTo 53 := (twoTo_add 52 1).symm
      simp only [units, carried, Nat.add_comm _ 1, twoTo_add 1]
      rw [← Nat.mul_assoc, carry]
    · cases found
  · split at found
    · obtain rfl := Option.some.inj found
      rfl
    · cases found

/-- In finer units, of which the first 53 digits of a number are so many, it is the same. -/
theorem roundDiv_scaled (n unit : Nat) (fine : 52 ≤ n.log2 + unit) :
    roundDiv (n * twoTo unit) (twoTo (n.log2 + unit - 52)) * twoTo (n.log2 + unit - 52) =
      nearest n * twoTo unit := by
  by_cases long : 52 ≤ n.log2
  · have place : n.log2 + unit - 52 = n.log2 - 52 + unit := by omega
    rw [place, twoTo_add, roundDiv_mul (twoTo_pos unit), ← Nat.mul_assoc]
    rfl
  · -- A number of fewer digits is held with zeros behind it.
    have short : n.log2 - 52 = 0 := by omega
    have divides : twoTo (n.log2 + unit - 52) ∣ n * twoTo unit :=
      Nat.dvd_trans (Nat.pow_dvd_pow 2 (by omega)) (Nat.dvd_mul_left _ n)
    have one : lastPlace n ∣ n := by
      rw [lastPlace, short]
      exact Nat.one_dvd n
    rw [(roundDiv_dvd (twoTo_pos _)).mpr divides, nearest_eq_self.mpr one]

theorem Magnitude.ofRatio?_nearest {n : Nat} {m : Magnitude} (found : ofRatio? n 1 = some m) :
    m.units = nearest n * twoTo 1074 := by
  have units := ofRatio?_units found
  by_cases zero : n = 0
  · subst zero
    simpa [nearest, roundDiv] using units
  simp only [Nat.div_one, Nat.one_mul, excess, log2_mul_twoTo zero] at units
  exact units.trans (roundDiv_scaled n 1074 (by omega))

namespace Binary64

-- Of the function itself: the cases of an application cannot be told without computing the power.
theorem ofRatio_def :
    ofRatio = fun negative num den =>
      match Magnitude.ofRatio? num den with
      | some m => .finite negative m
      | none => .infinite negative := by
  delta ofRatio
  rfl

theorem wholeValue?_units {m : Magnitude} {n : Nat} (units : m.units = n * twoTo 1074)
    (negative : Bool) :
    (finite negative m).wholeValue? = some (if negative then -(n : Int) else n) := by
  have whole : m.units % twoTo 1074 = 0 := by rw [units, Nat.mul_mod_left]
  have part : m.units / twoTo 1074 = n := by rw [units, Nat.mul_div_cancel _ (twoTo_pos 1074)]
  simp only [wholeValue?, truncated, part]
  rw [if_pos whole]

/-- A whole number gives its value to 53 digits, unless no floating-point number is that large. -/
theorem ofRatio_rounded (n : Int) :
    (∃ whole, (ofRatio (n < 0) n.natAbs 1).wholeValue? = some whole ∧ rounded n = .whole whole) ∨
      (ofRatio (n < 0) n.natAbs 1).wholeValue? = none ∧
        rounded n = .binary (ofRatio (n < 0) n.natAbs 1) := by
  have beyond := @Magnitude.ofRatio?_whole n.natAbs
  cases found : Magnitude.ofRatio? n.natAbs 1 with
  | none =>
      right
      have great := Nat.not_lt.mpr (beyond.mp found)
      simp only [ofRatio_def, found]
      rw [rounded, if_neg great]
      exact ⟨rfl, rfl⟩
  | some m =>
      left
      have fits := Nat.not_le.mp fun great => Option.some_ne_none m (found ▸ beyond.mpr great)
      have units := Magnitude.ofRatio?_nearest found
      simp only [ofRatio_def, found]
      refine ⟨_, wholeValue?_units units _, ?_⟩
      rw [rounded, if_pos fits]
      by_cases negative : n < 0
      · simp [negative, Int.sign_eq_neg_one_of_neg negative]
      · rcases Int.lt_or_eq_of_le (Int.not_lt.mp negative) with positive | rfl
        · simp [negative, Int.sign_eq_one_of_pos positive]
        · simp [nearest, roundDiv]

end Binary64

/-! ## Decimal digits -/

section
variable {cs : List Char}

theorem isAsciiDigit_iff {c : Char} : isAsciiDigit c = true ↔ 48 ≤ c.toNat ∧ c.toNat ≤ 57 := by
  simp [isAsciiDigit, Char.le_def, UInt32.le_iff_toNat_le]

theorem dropWhile_clear {drop : Char → Bool} (clear : ∀ c ∈ cs, drop c = false) :
    cs.dropWhile drop = cs := by
  cases cs with
  | nil => rfl
  | cons c rest => simp [clear c List.mem_cons_self]

theorem trim_clear {drop : Char → Bool} (clear : ∀ c ∈ cs, drop c = false) : trim drop cs = cs := by
  have back : cs.reverse.dropWhile drop = cs.reverse :=
    dropWhile_clear fun c member => clear c (List.mem_reverse.mp member)
  rw [trim, trimLeft, dropWhile_clear clear, trimRight, back, List.reverse_reverse]

/-- Digits with or without a minus are read as they stand. -/
theorem literalChars_plain (plain : ∀ c ∈ cs, c = '-' ∨ isAsciiDigit c = true) :
    literalChars cs = cs := by
  have form (c : Char) (member : c ∈ cs) : asciiForm c = c ∧ isAsciiBlank c = false := by
    rcases plain c member with rfl | digit
    · decide
    · have code := isAsciiDigit_iff.mp digit
      have other : c ≠ ' ' := by
        rintro rfl
        simp at code
      refine ⟨if_pos (by omega), ?_⟩
      simp [isAsciiBlank, other]
      omega
  have same : cs.map asciiForm = cs :=
    (List.map_congr_left fun c member => (form c member).1).trans (List.map_id cs)
  rw [literalChars, same, trim_clear fun c member => (form c member).2]

theorem withoutUnderscores_none (none : '_' ∉ cs) (previous : Option Char) :
    withoutUnderscores previous cs = some cs := by
  induction cs generalizing previous with
  | nil => rfl
  | cons c rest ih =>
      have other : c ≠ '_' := fun same => none (same ▸ List.mem_cons_self)
      rw [withoutUnderscores, ih fun member => none (List.mem_cons_of_mem c member)]
      · rfl
      · exact other

theorem spanDigits_digits (digits : ∀ c ∈ cs, isAsciiDigit c = true) :
    spanDigits cs = (cs.map (·.toNat - 48), []) := by
  rw [spanDigits, List.takeWhile_eq_self_iff.mpr digits, List.dropWhile_eq_nil_iff.mpr digits]

theorem namedNumber?_digits (digits : ∀ c ∈ cs, isAsciiDigit c = true) (negative : Bool) :
    namedNumber? negative cs = none := by
  cases cs with
  | nil => rfl
  | cons c rest =>
      have code := isAsciiDigit_iff.mp (digits c List.mem_cons_self)
      have lower : c.toLower = c := by
        delta Char.toLower
        rw [dif_neg]
        intro upper
        have letter : 65 ≤ c.toNat := UInt32.le_iff_toNat_le.mp upper.1
        omega
      have other (w : Char) (letter : 57 < w.toNat) : c ≠ w := by
        rintro rfl
        omega
      simp [namedNumber?, lower, other 'i' (by decide), other 'n' (by decide)]

theorem takeSign_digits (digits : ∀ c ∈ cs, isAsciiDigit c = true) : takeSign cs = (false, cs) := by
  unfold takeSign
  split
  · nomatch digits _ List.mem_cons_self
  · nomatch digits _ List.mem_cons_self
  · rfl

theorem readUnsigned?_digits (digits : ∀ c ∈ cs, isAsciiDigit c = true) (some : cs ≠ [])
    (negative : Bool) :
    readUnsigned? negative cs =
      .some (.ofDecimal negative (ofDigits (cs.map (·.toNat - 48))) 0) := by
  simp [readUnsigned?, namedNumber?_digits digits, spanDigits_digits digits, fractionDigits,
    exponentValue?, some]

end

theorem ofDigits_toDigits (n : Nat) :
    ofDigits ((Nat.toDigits 10 n).map (·.toNat - 48)) = n := by
  rw [ofDigits, List.foldl_map]
  exact Nat.ofDigitChars_eq_foldl.symm.trans Nat.ofDigitChars_ten_toDigits

theorem length_toDigits_le {n count : Nat} (some : 0 < count) :
    (Nat.toDigits 10 n).length ≤ count ↔ n < tenTo count :=
  Nat.length_toDigits_le_iff (by decide) some

theorem twoTo_le_tenTo : twoTo 1024 ≤ tenTo 400 := by decide +kernel

/-- A number of more than 400 digits is beyond the greatest magnitude. -/
theorem Binary64.ofDecimal_whole (negative : Bool) (n : Nat) :
    ofDecimal negative n 0 = ofRatio negative n 1 := by
  by_cases zero : n = 0
  · subst zero
    have found : Magnitude.ofRatio? 0 1 = some .nil := by decide +kernel
    simp only [ofRatio_def, found]
    rfl
  have length := length_toDigits_le (n := n) (Nat.zero_lt_succ 399)
  simp only [ofDecimal, if_neg zero, Int.add_zero]
  by_cases long : (Nat.toDigits 10 n).length ≤ 400
  · rw [if_neg (by omega), if_neg (by omega), if_pos (Int.le_refl 0)]
    simp [tenTo]
  · have great : tenTo 400 ≤ n := Nat.not_lt.mp fun small => long (length.mpr small)
    have beyond : Magnitude.ofRatio? n 1 = none := Magnitude.ofRatio?_whole.mpr
      (Nat.le_trans (Nat.sub_le _ _) (Nat.le_trans twoTo_le_tenTo great))
    rw [if_pos (by omega)]
    simp only [ofRatio_def, beyond]

theorem toString_toList (n : Int) :
    (toString n).toList = (if n < 0 then ['-'] else []) ++ Nat.toDigits 10 n.natAbs := by
  have printed : toString n = n.repr := rfl
  rw [printed, Int.repr_eq_if]
  by_cases negative : n < 0
  · have size : (-n).toNat = n.natAbs := by omega
    rw [if_neg (by omega), if_pos negative, size, Nat.repr_eq_ofList_toDigits, String.toList_append]
    exact congrArg ('-' :: ·) String.toList_ofList
  · have size : n.toNat = n.natAbs := by omega
    rw [if_pos (by omega), if_neg negative, size, Nat.repr_eq_ofList_toDigits, String.toList_ofList]
    rfl

theorem toDigits_digits (n : Nat) : ∀ c ∈ Nat.toDigits 10 n, isAsciiDigit c = true := by
  intro c member
  have digit := Nat.isDigit_of_mem_toDigits (by decide) (by decide) member
  simpa [isAsciiDigit, Char.isDigit, Char.le_def] using digit

theorem toString_plain (n : Int) : ∀ c ∈ (toString n).toList, c = '-' ∨ isAsciiDigit c = true := by
  intro c member
  rw [toString_toList] at member
  rcases List.mem_append.mp member with sign | digit
  · split at sign
    · exact .inl (List.mem_singleton.mp sign)
    · nomatch sign
  · exact .inr (toDigits_digits n.natAbs c digit)

theorem takeSign_toString (n : Int) :
    takeSign (toString n).toList = (decide (n < 0), Nat.toDigits 10 n.natAbs) := by
  rw [toString_toList]
  by_cases negative : n < 0
  · rw [if_pos negative, decide_eq_true negative]
    rfl
  · rw [if_neg negative, decide_eq_false negative, List.nil_append]
    exact takeSign_digits (toDigits_digits n.natAbs)

/-- What is read of a whole number in decimal is the nearest floating-point number. -/
theorem readDecimal?_whole (n : Int) :
    readDecimal? (toString n).toList = some (.ofRatio (n < 0) n.natAbs 1) := by
  have none : '_' ∉ (toString n).toList := by
    intro member
    rcases toString_plain n _ member with sign | digit
    · nomatch sign
    · nomatch digit
  have unsigned := readUnsigned?_digits (toDigits_digits n.natAbs) Nat.toDigits_ne_nil (n < 0)
  rw [ofDigits_toDigits, Binary64.ofDecimal_whole] at unsigned
  rw [readDecimal?, literalChars_plain (toString_plain n), withoutUnderscores_none none,
    Option.bind_some, takeSign_toString]
  exact unsigned

end Number

namespace Value

variable {text : String} {x : Number.Binary64}

theorem toBound_binary (read : (str text).toBinary = .ok x) :
    (∀ whole, x.wholeValue? = some whole → (str text).toBound = .ok (.whole whole)) ∧
      (x.wholeValue? = Option.none → (str text).toBound = .ok (.binary x)) := by
  simp only [toBound, read, Bind.bind, Except.bind]
  constructor
  · intro whole same
    rw [same]
    rfl
  · intro same
    rw [same]
    rfl

/-- A whole number in decimal is read as a bound to 53 digits. -/
theorem toBound_whole (n : Int) : (str (toString n)).toBound = .ok (.rounded n) := by
  have read : (str (toString n)).toBinary = .ok (.ofRatio (n < 0) n.natAbs 1) := by
    simp only [toBinary, Number.readDecimal?_whole]
  obtain ⟨ofWhole, ofBinary⟩ := toBound_binary read
  rcases Number.Binary64.ofRatio_rounded n with ⟨whole, some, same⟩ | ⟨none, same⟩
  · rw [same]
    exact ofWhole whole some
  · rw [same]
    exact ofBinary none

end Value

end FieldRules
