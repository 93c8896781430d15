import FieldRules.Proofs.Number.Nearest

/-! # Whole numbers as floating-point literals

A whole number and a floating-point number are read in different ways: one takes the digits and
looks for underscores out of place as it goes, the other takes all the underscores out first and
looks for a point and an exponent after the digits. What is read as a whole number is also read as a
floating-point number, which is the nearest one. Only the floating-point zero keeps a minus.
-/

namespace FieldRules.Number

open FieldRules.Text

variable {cs : List Char} {values : List Nat}

/-! ## Rows of digits -/

theorem asciiDigitValue?_eq_some {c : Char} {value : Nat}
    (valued : asciiDigitValue? c = some value) :
    isAsciiDigit c = true ∧ c.toNat - 48 = value := by
  rw [asciiDigitValue?] at valued
  split at valued
  · next digit => exact ⟨digit, Option.some.inj valued⟩
  · cases valued

/-- A row that takes a whole text goes on with a digit or an underscore, the latter only behind a
    digit. -/
theorem digitRow_cons {context : DigitContext} {c : Char}
    (row : digitRow context (c :: cs) = some (values, [])) :
    c = '_' ∧ context = .afterDigit ∧ digitRow .afterUnderscore cs = some (values, []) ∨
      c ≠ '_' ∧ isAsciiDigit c = true ∧ ∃ more, values = (c.toNat - 48) :: more ∧
        digitRow .afterDigit cs = some (more, []) := by
  rw [digitRow] at row
  by_cases underscore : c = '_'
  · rw [if_pos underscore] at row
    split at row
    · next after => exact .inl ⟨underscore, after, row⟩
    · cases row
  · rw [if_neg underscore] at row
    cases valued : asciiDigitValue? c with
    | none =>
        rw [valued] at row
        dsimp only at row
        split at row
        · cases row
        · cases (Prod.mk.inj (Option.some.inj row)).2
    | some value =>
        obtain ⟨digit, rfl⟩ := asciiDigitValue?_eq_some valued
        rw [valued] at row
        obtain ⟨⟨more, after⟩, rest, same⟩ := Option.map_eq_some_iff.mp row
        obtain ⟨rfl, rfl⟩ := Prod.mk.inj same
        exact .inr ⟨underscore, digit, more, rfl, rest⟩

/-- Behind an underscore there is a digit. -/
theorem digitRow_afterUnderscore (row : digitRow .afterUnderscore cs = some (values, [])) :
    ∃ c rest, cs = c :: rest ∧ isAsciiDigit c = true := by
  cases cs with
  | nil => cases row
  | cons c rest =>
      rcases digitRow_cons row with ⟨-, context, -⟩ | ⟨-, digit, -⟩
      · cases context
      · exact ⟨c, rest, rfl, digit⟩

/-- The underscores of a row of digits can all be taken out, which leaves its digits. -/
theorem withoutUnderscores_row {context : DigitContext} {previous : Option Char}
    (behind : context = .afterDigit → ∃ c, previous = some c ∧ isAsciiDigit c = true)
    (row : digitRow context cs = some (values, [])) :
    ∃ digits, withoutUnderscores previous cs = some digits ∧
      (∀ c ∈ digits, isAsciiDigit c = true) ∧ digits.map (·.toNat - 48) = values := by
  induction cs generalizing context previous values with
  | nil =>
      rw [digitRow] at row
      split at row
      · cases row
      · obtain ⟨rfl, -⟩ := Prod.mk.inj (Option.some.inj row)
        exact ⟨[], rfl, by simp, rfl⟩
  | cons c rest ih =>
      rcases digitRow_cons row with ⟨rfl, after, more⟩ | ⟨other, digit, left, rfl, more⟩
      · obtain ⟨before, rfl, digitBefore⟩ := behind after
        obtain ⟨next, tail, rfl, digitNext⟩ := digitRow_afterUnderscore more
        have apart : DigitContext.afterUnderscore = .afterDigit →
            ∃ c, some '_' = some c ∧ isAsciiDigit c = true := by simp
        obtain ⟨digits, taken, known⟩ := ih apart more
        refine ⟨digits, ?_, known⟩
        rw [withoutUnderscores, if_pos (by rw [digitBefore, digitNext]; rfl), taken]
      · obtain ⟨digits, taken, all, valued⟩ := ih (fun _ => ⟨c, rfl, digit⟩) more
        refine ⟨c :: digits, ?_, List.forall_mem_cons.mpr ⟨digit, all⟩, ?_⟩
        · rw [withoutUnderscores, taken]
          · rfl
          · exact other
        · rw [List.map_cons, valued]

/-! ## Signs -/

/-- The body of a literal with what stands before it: a sign or nothing. -/
theorem takeSign_cases (cs : List Char) :
    cs = '-' :: (takeSign cs).2 ∧ (takeSign cs).1 = true ∨
      cs = '+' :: (takeSign cs).2 ∧ (takeSign cs).1 = false ∨
      cs = (takeSign cs).2 ∧ (takeSign cs).1 = false := by
  unfold takeSign
  split
  · exact .inl ⟨rfl, rfl⟩
  · exact .inr (.inl ⟨rfl, rfl⟩)
  · exact .inr (.inr ⟨rfl, rfl⟩)

/-- A sign in front of a row of digits stays in place when the underscores go. -/
theorem withoutUnderscores_signed (row : digitRow .start (takeSign cs).2 = some (values, [])) :
    ∃ plain digits, withoutUnderscores none cs = some plain ∧
      takeSign plain = ((takeSign cs).1, digits) ∧
      (∀ c ∈ digits, isAsciiDigit c = true) ∧ digits.map (·.toNat - 48) = values := by
  have first (previous : Option Char) : DigitContext.start = .afterDigit →
      ∃ c, previous = some c ∧ isAsciiDigit c = true := by simp
  have taken (previous : Option Char) := withoutUnderscores_row (first previous) row
  rcases takeSign_cases cs with ⟨whole, sign⟩ | ⟨whole, sign⟩ | ⟨whole, sign⟩
  · obtain ⟨digits, found, known⟩ := taken (some '-')
    refine ⟨'-' :: digits, digits, ?_, by rw [sign]; rfl, known⟩
    rw [whole, withoutUnderscores, found]
    · rfl
    · decide
  · obtain ⟨digits, found, known⟩ := taken (some '+')
    refine ⟨'+' :: digits, digits, ?_, by rw [sign]; rfl, known⟩
    rw [whole, withoutUnderscores, found]
    · rfl
    · decide
  · obtain ⟨digits, found, all, valued⟩ := taken none
    refine ⟨digits, digits, ?_, by rw [sign, takeSign_digits all], all, valued⟩
    rw [whole, found]

/-! ## Whole numbers -/

/-- What a text that is read as a whole number is made of: a sign, and a row of digits that is not
    empty. -/
theorem readInteger_eq_ok {n : Int} (read : readInteger cs = .ok n) :
    ∃ values, digitRow .start (takeSign (literalChars cs)).2 = some (values, []) ∧ values ≠ [] ∧
      n = if (takeSign (literalChars cs)).1 then -(ofDigits values : Int) else ofDigits values := by
  simp only [readInteger] at read
  split at read
  · cases read
  · next values after row =>
      split at read
      · cases read
      · split at read
        · cases read
        · next whole =>
            obtain ⟨some, none⟩ : values ≠ [] ∧ after = [] := by simpa using whole
            subst none
            exact ⟨values, row, some, (Except.ok.inj read).symm⟩

/-- What is read as a whole number is read as the nearest floating-point number. -/
theorem readDecimal?_of_readInteger {n : Int} (read : readInteger cs = .ok n) :
    ∃ negative, n = (if negative then -(n.natAbs : Int) else n.natAbs) ∧
      readDecimal? cs = some (.ofRatio negative n.natAbs 1) := by
  obtain ⟨values, row, some, rfl⟩ := readInteger_eq_ok read
  obtain ⟨plain, digits, taken, signed, all, rfl⟩ := withoutUnderscores_signed row
  have size : (if (takeSign (literalChars cs)).1 then -(ofDigits (digits.map (·.toNat - 48)) : Int)
      else ofDigits (digits.map (·.toNat - 48))).natAbs = ofDigits (digits.map (·.toNat - 48)) := by
    split <;> omega
  have filled : digits ≠ [] := fun empty => some (List.map_eq_nil_iff.mpr empty)
  refine ⟨(takeSign (literalChars cs)).1, by rw [size], ?_⟩
  rw [readDecimal?, taken, Option.bind_some, signed, size, ← Binary64.ofDecimal_whole]
  exact readUnsigned?_digits all filled _

/-- The nearest floating-point number to a whole number stands for it rounded to 53 digits,
    whichever sign a zero has. -/
theorem Binary64.ofRatio_signed {n : Int} {negative : Bool}
    (sign : n = if negative then -(n.natAbs : Int) else n.natAbs) :
    (∃ whole, (ofRatio negative n.natAbs 1).wholeValue? = some whole ∧ rounded n = .whole whole) ∨
      (ofRatio negative n.natAbs 1).wholeValue? = none ∧
        rounded n = .binary (ofRatio negative n.natAbs 1) := by
  by_cases same : negative = decide (n < 0)
  · rw [same]
    exact ofRatio_rounded n
  · obtain ⟨rfl, rfl⟩ : n = 0 ∧ negative = true := by
      cases negative with
      | false =>
          have below : n < 0 := by simpa using same
          have least : 0 ≤ n := by
            rw [sign]
            exact Int.natCast_nonneg _
          omega
      | true =>
          have least : 0 ≤ n := by simpa using same
          have most : n ≤ 0 := by
            rw [sign]
            exact Int.neg_nonpos_of_nonneg (Int.natCast_nonneg _)
          exact ⟨Int.le_antisymm most least, rfl⟩
    exact .inl ⟨0, by decide +kernel, by decide +kernel⟩

end FieldRules.Number
