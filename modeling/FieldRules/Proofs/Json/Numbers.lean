import FieldRules.Proofs.Json.Tokens
import Mathlib.Data.List.DropRight

/-! # Recognition of numbers in JSON

Reading takes the longest number off the front of a text. So a number of the grammar is taken as it
is if what follows does not go on with it, and only a whole number is refused for its digits.
-/

namespace FieldRules.Json

open FieldRules.Number FieldRules.Text

variable {α : Type}

/-! ## Rows of digits -/

theorem Digits.head {row : List Char} (digits : Digits row) :
    ∃ c rest, row = c :: rest ∧ isAsciiDigit c = true := by
  obtain ⟨nonempty, all⟩ := digits
  cases row with
  | nil => exact absurd rfl nonempty
  | cons c rest => exact ⟨c, rest, rfl, all c List.mem_cons_self⟩

/-- A row of digits is taken with all digits that follow. -/
theorem Digits.span {row : List Char} (digits : Digits row) (rest : List Char) :
    ∃ values, spanDigits (row ++ rest) = (values, rest.dropWhile isAsciiDigit) ∧ values ≠ [] ∧
      values.length = row.length + (rest.takeWhile isAsciiDigit).length := by
  have taken : (row ++ rest).takeWhile isAsciiDigit = row ++ rest.takeWhile isAsciiDigit :=
    List.takeWhile_append_of_pos digits.2
  have left : (row ++ rest).dropWhile isAsciiDigit = rest.dropWhile isAsciiDigit :=
    List.dropWhile_append_of_pos digits.2
  refine ⟨(row ++ rest.takeWhile isAsciiDigit).map (·.toNat - 48), ?_, ?_, ?_⟩
  · rw [spanDigits, taken, left]
  · simp [digits.1]
  · simp

theorem spanDigits_row {cs after : List Char} {values : List Nat}
    (taken : spanDigits cs = (values, after)) (found : values ≠ []) :
    ∃ row, cs = row ++ after ∧ Digits row ∧ row.length = values.length ∧
      after.dropWhile isAsciiDigit = after := by
  obtain ⟨rfl, rfl⟩ := Prod.mk.inj taken
  refine ⟨cs.takeWhile isAsciiDigit, List.takeWhile_append_dropWhile.symm, ⟨?_, ?_⟩, ?_, ?_⟩
  · simpa using found
  · exact fun c member => List.mem_takeWhile_imp member
  · simp
  · exact List.dropWhile_idempotent _ _

/-! ## Fractions and exponents -/

theorem Fraction.taken {part : List Char} (fraction : Fraction part) (rest : List Char) :
    (takeFraction? (part ++ rest)).map (·.2) = some (rest.dropWhile isAsciiDigit) := by
  obtain ⟨digits⟩ := fraction
  obtain ⟨values, taken, found, -⟩ := digits.span rest
  cases values with
  | nil => exact absurd rfl found
  | cons => simp only [List.cons_append, takeFraction?, taken, Option.map_some]

theorem takeFraction?_part {cs after : List Char} {digits : List Nat}
    (taken : takeFraction? cs = some (digits, after)) :
    ∃ part, cs = part ++ after ∧ Fraction part := by
  unfold takeFraction? at taken
  split at taken
  · split at taken
    · nomatch taken
    · rename_i empty
      have same := Option.some.inj taken
      have found : digits ≠ [] := by
        rintro rfl
        exact empty _ same
      obtain ⟨row, rfl, digits, -⟩ := spanDigits_row same found
      exact ⟨_, rfl, .mk digits⟩
  · nomatch taken

theorem takeSign_part (cs : List Char) :
    ∃ sign, cs = sign ++ (takeSign cs).2 ∧ (sign = [] ∨ sign = ['+'] ∨ sign = ['-']) := by
  unfold takeSign
  split
  · exact ⟨['-'], rfl, .inr (.inr rfl)⟩
  · exact ⟨['+'], rfl, .inr (.inl rfl)⟩
  · exact ⟨[], rfl, .inl rfl⟩

theorem takeSign_row {sign row : List Char} (signed : sign = [] ∨ sign = ['+'] ∨ sign = ['-'])
    (digits : Digits row) (rest : List Char) :
    (takeSign (sign ++ (row ++ rest))).2 = row ++ rest := by
  rcases signed with rfl | rfl | rfl
  · obtain ⟨c, more, rfl, digit⟩ := digits.head
    unfold takeSign
    split
    · rename_i same
      obtain rfl := (List.cons.inj same).1
      nomatch digit
    · rename_i same
      obtain rfl := (List.cons.inj same).1
      nomatch digit
    · rfl
  · rfl
  · rfl

theorem Exponent.taken {part : List Char} (exponent : Exponent part) (rest : List Char) :
    (takeExponent? (part ++ rest)).map (·.2) = some (rest.dropWhile isAsciiDigit) := by
  obtain ⟨letter, signed, digits⟩ := exponent
  have body := takeSign_row signed digits rest
  obtain ⟨values, taken, found, -⟩ := digits.span rest
  cases values with
  | nil => exact absurd rfl found
  | cons => simp [takeExponent?, letter, body, taken]

theorem takeExponent?_part {cs after : List Char} {power : Int}
    (taken : takeExponent? cs = some (power, after)) :
    ∃ part, cs = part ++ after ∧ Exponent part := by
  unfold takeExponent? at taken
  split at taken
  · rename_i c rest
    split at taken
    · rename_i letter
      simp only at taken
      split at taken
      · nomatch taken
      · rename_i digits body empty span
        obtain ⟨-, rfl⟩ := Prod.mk.inj (Option.some.inj taken)
        obtain ⟨sign, same, signed⟩ := takeSign_part rest
        obtain ⟨row, behind, digits, -⟩ := spanDigits_row span empty
        refine ⟨c :: (sign ++ row), ?_, .mk (by simpa using letter) signed digits⟩
        rw [same, behind, List.cons_append, List.append_assoc]
    · nomatch taken
  · nomatch taken

/-! ## The end of a number -/

/-- What takes tokens of a kind takes none just if none stands at the front. -/
theorem none_iff {good : List Char → Prop} {take : List Char → Option (α × List Char)}
    (taken : ∀ {part}, good part → ∀ rest,
      (take (part ++ rest)).map (·.2) = some (rest.dropWhile isAsciiDigit))
    (token : ∀ {cs a after}, take cs = some (a, after) → ∃ part, cs = part ++ after ∧ good part)
    {cs : List Char} : take cs = none ↔ ∀ part rest, cs = part ++ rest → ¬good part := by
  constructor
  · rintro nothing part rest rfl fine
    simpa [nothing] using taken fine rest
  · intro nowhere
    cases found : take cs with
    | none => rfl
    | some pair =>
        obtain ⟨part, same, fine⟩ := token found
        exact absurd fine (nowhere part _ same)

theorem takeFraction?_none_iff {cs : List Char} :
    takeFraction? cs = none ↔ ∀ part rest, cs = part ++ rest → ¬Fraction part :=
  none_iff Fraction.taken takeFraction?_part

theorem takeExponent?_none_iff {cs : List Char} :
    takeExponent? cs = none ↔ ∀ part rest, cs = part ++ rest → ¬Exponent part :=
  none_iff Exponent.taken takeExponent?_part

theorem dropDigits_iff {cs : List Char} :
    cs.dropWhile isAsciiDigit = cs ↔ ∀ part rest, cs = part ++ rest → ¬Digits part := by
  constructor
  · rintro kept part rest rfl digits
    obtain ⟨c, more, rfl, digit⟩ := digits.head
    have shorter := congrArg List.length kept
    rw [List.cons_append, List.dropWhile_cons_of_pos digit, List.length_cons] at shorter
    have atMost := (List.dropWhile_suffix (l := more ++ rest) isAsciiDigit).length_le
    omega
  · intro nowhere
    cases cs with
    | nil => rfl
    | cons c rest =>
        apply List.dropWhile_cons_of_neg
        intro digit
        exact nowhere [c] rest rfl ⟨by simp, by simpa using digit⟩

theorem stops_iff {cs : List Char} : Stops cs ↔
    cs.dropWhile isAsciiDigit = cs ∧ takeFraction? cs = none ∧ takeExponent? cs = none := by
  rw [dropDigits_iff, takeFraction?_none_iff, takeExponent?_none_iff]
  constructor
  · intro stops
    exact ⟨fun part rest same => (stops part rest same).1,
      fun part rest same => (stops part rest same).2.1,
      fun part rest same => (stops part rest same).2.2⟩
  · intro ⟨noDigits, noFraction, noExponent⟩ part rest same
    exact ⟨noDigits part rest same, noFraction part rest same, noExponent part rest same⟩

theorem Stops.nil : Stops [] := stops_iff.mpr ⟨rfl, rfl, rfl⟩

theorem Stops.cons {c : Char} (other : isAsciiDigit c = false ∧ c ∉ ['.', 'e', 'E'])
    (rest : List Char) : Stops (c :: rest) := by
  obtain ⟨noDigit, noMark⟩ := other
  simp only [List.mem_cons, List.not_mem_nil, or_false, not_or] at noMark
  obtain ⟨noPoint, noSmall, noCapital⟩ := noMark
  refine stops_iff.mpr ⟨List.dropWhile_cons_of_neg (by simp [noDigit]), ?_, ?_⟩
  · unfold takeFraction?
    split
    · rename_i same
      exact absurd (List.cons.inj same).1 noPoint
    · rfl
  · simp [takeExponent?, noSmall, noCapital]

/-- What stands behind a number is what is left after its fraction and its exponent. -/
theorem exponent_taken {exponent rest : List Char} (power : exponent = [] ∨ Exponent exponent)
    (stops : Stops rest) :
    ((takeExponent? (exponent ++ rest)).map (·.2)).getD (exponent ++ rest) = rest ∧
      ((takeExponent? (exponent ++ rest)).isNone ↔ exponent = []) ∧
      takeFraction? (exponent ++ rest) = none ∧
      (exponent ++ rest).dropWhile isAsciiDigit = exponent ++ rest := by
  obtain ⟨kept, noFraction, noExponent⟩ := stops_iff.mp stops
  rcases power with rfl | exponent
  · simp [noExponent, noFraction, kept]
  · have taken := exponent.taken rest
    rw [kept] at taken
    obtain ⟨letter, -, -⟩ := exponent
    refine ⟨by rw [taken]; rfl, ?_, ?_, ?_⟩
    · rw [← Option.isNone_map, taken]
      simp
    · rcases letter with rfl | rfl <;> rfl
    · rcases letter with rfl | rfl <;> rfl

theorem fraction_taken {fraction rest : List Char} (places : fraction = [] ∨ Fraction fraction)
    (kept : rest.dropWhile isAsciiDigit = rest) (noFraction : takeFraction? rest = none) :
    ((takeFraction? (fraction ++ rest)).map (·.2)).getD (fraction ++ rest) = rest ∧
      ((takeFraction? (fraction ++ rest)).isNone ↔ fraction = []) ∧
      (fraction ++ rest).dropWhile isAsciiDigit = fraction ++ rest := by
  rcases places with rfl | fraction
  · simp [noFraction, kept]
  · have taken := fraction.taken rest
    rw [kept] at taken
    refine ⟨by rw [taken]; rfl, ?_, ?_⟩
    · rw [← Option.isNone_map, taken]
      cases fraction
      simp
    · cases fraction
      rfl

/-! ## The digits before the point -/

theorem Whole.head {row : List Char} (whole : Whole row) :
    ∃ c rest, row = c :: rest ∧ isAsciiDigit c = true := by
  cases whole with
  | zero => exact ⟨'0', [], rfl, rfl⟩
  | row digits => exact digits.head

theorem Whole.taken {row rest : List Char} (whole : Whole row)
    (kept : rest.dropWhile isAsciiDigit = rest) :
    ∃ digits, takeWhole? (row ++ rest) = some (digits, rest) ∧ digits.length = row.length := by
  cases whole with
  | zero => exact ⟨[0], rfl, rfl⟩
  | row digits first =>
      obtain ⟨values, taken, found, counted⟩ := digits.span rest
      have noneLeft : rest.takeWhile isAsciiDigit = [] := by
        simpa [kept] using List.takeWhile_append_dropWhile (p := isAsciiDigit) (l := rest)
      rw [kept] at taken
      rw [noneLeft, List.length_nil, Nat.add_zero] at counted
      refine ⟨values, ?_, counted⟩
      obtain ⟨c, more, rfl, -⟩ := digits.head
      unfold takeWhole?
      split
      · rename_i same
        obtain rfl := (List.cons.inj same).1
        exact absurd rfl first
      · rw [taken]
        cases values with
        | nil => exact absurd rfl found
        | cons => rfl

/-- A row of more than one digit is taken to its end. -/
theorem takeWhole?_whole {cs after : List Char} {digits : List Nat}
    (taken : takeWhole? cs = some (digits, after)) :
    ∃ row, cs = row ++ after ∧ Whole row ∧ row.length = digits.length ∧
      (1 < row.length → after.dropWhile isAsciiDigit = after) := by
  unfold takeWhole? at taken
  split at taken
  · obtain ⟨rfl, rfl⟩ := Prod.mk.inj (Option.some.inj taken)
    exact ⟨['0'], rfl, .zero, rfl, fun more => absurd more (Nat.lt_irrefl 1)⟩
  · rename_i noZero
    split at taken
    · nomatch taken
    · rename_i empty
      have same := Option.some.inj taken
      have found : digits ≠ [] := by
        rintro rfl
        exact empty _ same
      obtain ⟨row, rfl, digits, counted, kept⟩ := spanDigits_row same found
      refine ⟨row, rfl, .row digits ?_, counted, fun _ => kept⟩
      obtain ⟨c, more, rfl, -⟩ := digits.head
      rintro first
      obtain rfl := Option.some.inj first
      exact noZero _ rfl

/-! ## Numbers -/

theorem takeNumber_signed {sign : List Char} (minus : Minus sign) {c : Char}
    (digit : isAsciiDigit c = true) (cs : List Char) :
    ∃ negative, takeNumber (sign ++ c :: cs) = takeUnsigned negative (c :: cs) := by
  have other (mark : Char) (noDigit : isAsciiDigit mark = false) : mark ≠ c := by
    rintro rfl
    simp [noDigit] at digit
  rcases minus with rfl | rfl
  · refine ⟨false, ?_⟩
    rw [List.nil_append]
    unfold takeNumber
    split
    · rename_i same
      exact absurd (List.cons.inj same).1.symm (other '-' rfl)
    · rfl
  · exact ⟨true, by simp [takeNumber, takeWord?, other 'I' rfl]⟩

/-- Only a whole number is refused for its digits. -/
theorem takeUnsigned_taken (negative : Bool) {whole fraction exponent rest : List Char}
    (row : Whole whole) (places : fraction = [] ∨ Fraction fraction)
    (power : exponent = [] ∨ Exponent exponent) (stops : Stops rest) :
    ∃ value, takeUnsigned negative (whole ++ (fraction ++ (exponent ++ rest))) =
      if (fraction = [] ∧ exponent = []) ∧ digitLimit < whole.length then
        .error (.tooManyDigits whole.length)
      else .ok (value, rest) := by
  obtain ⟨afterPower, powerless, noFraction, powerKept⟩ := exponent_taken power stops
  obtain ⟨afterPlaces, placeless, kept⟩ := fraction_taken places powerKept noFraction
  obtain ⟨digits, taken, counted⟩ := row.taken kept
  simp only [takeUnsigned, taken, afterPlaces, afterPower, Bool.and_eq_true, placeless, powerless,
    counted]
  by_cases plain : fraction = [] ∧ exponent = []
  · by_cases beyond : digitLimit < whole.length
    · exact ⟨.none, by rw [if_pos plain, if_pos beyond, if_pos ⟨plain, beyond⟩]⟩
    · exact ⟨_, (if_pos plain).trans ((if_neg beyond).trans (if_neg (beyond ·.2)).symm)⟩
  · exact ⟨_, (if_neg plain).trans (if_neg (plain ·.1)).symm⟩

theorem Numeral.comes {d : Dialect} {cs rest : List Char} (numeral : Numeral d cs)
    (stops : Stops rest) : Comes d rest (takeNumber (cs ++ rest)) := by
  obtain ⟨minus, row, places, power, fits⟩ := numeral
  rename_i sign whole fraction exponent
  obtain ⟨c, more, begins, digit⟩ := row.head
  obtain ⟨negative, signed⟩ := takeNumber_signed minus digit
    (more ++ (fraction ++ (exponent ++ rest)))
  obtain ⟨value, taken⟩ := takeUnsigned_taken negative row places power stops
  rw [begins, List.cons_append] at taken
  rw [begins] at fits
  simp only [begins, List.append_assoc, List.cons_append, signed, taken]
  split
  · rename_i refused
    exact .long (fits refused.1.1 refused.1.2) refused.2
  · exact .read value

theorem BeginsLong.taken {count : Nat} {cs : List Char} (begins : BeginsLong count cs) :
    takeNumber cs = .error (.tooManyDigits count) := by
  obtain ⟨minus, row, rfl, beyond, stops⟩ := begins
  rename_i sign whole rest
  obtain ⟨c, more, same, digit⟩ := row.head
  obtain ⟨negative, signed⟩ := takeNumber_signed minus digit (more ++ rest)
  obtain ⟨value, taken⟩ := takeUnsigned_taken negative row (.inl rfl) (.inl rfl) stops
  rw [if_pos ⟨⟨rfl, rfl⟩, beyond⟩, same] at taken
  rw [same, List.append_assoc, List.cons_append, signed]
  exact taken

/-- A part that may be missing, and what is left behind it. -/
theorem optional_part {good : List Char → Prop} (cs : List Char) (taken : Option (α × List Char))
    (solid : ¬good [])
    (found : ∀ a after, taken = some (a, after) → ∃ part, cs = part ++ after ∧ good part) :
    ∃ part after, (taken.map (·.2)).getD cs = after ∧ cs = part ++ after ∧
      (part = [] ∨ good part) ∧ (part = [] → taken = none) := by
  cases taken with
  | none => exact ⟨[], cs, rfl, rfl, .inl rfl, fun _ => rfl⟩
  | some pair =>
      obtain ⟨part, same, fine⟩ := found pair.1 pair.2 rfl
      refine ⟨part, pair.2, rfl, same, .inr fine, ?_⟩
      rintro rfl
      exact absurd fine solid

theorem takeUnsigned_finds {sign : List Char} (minus : Minus sign) (negative : Bool)
    (cs : List Char) :
    Finds (Derives .limited .value) (Opens .value) (sign ++ cs) (takeUnsigned negative cs) := by
  simp only [takeUnsigned]
  split
  · exact .malformed
  · rename_i digits afterFront taken
    obtain ⟨row, rfl, whole, counted, kept⟩ := takeWhole?_whole taken
    obtain ⟨fraction, afterPlaces, leftFront, behindFront, places, noPlaces⟩ :=
      optional_part afterFront _ (by rintro ⟨⟩) fun _ _ => takeFraction?_part
    rw [leftFront]
    obtain ⟨exponent, rest, leftPlaces, behindPlaces, power, noPower⟩ :=
      optional_part afterPlaces _ (by rintro ⟨⟩) fun _ _ => takeExponent?_part
    rw [leftPlaces]
    -- What is taken is a number if its digits are few or not counted.
    have same : sign ++ (row ++ afterFront) = sign ++ row ++ fraction ++ exponent ++ rest := by
      simp only [behindFront, behindPlaces, List.append_assoc]
    have number (fits : fraction = [] → exponent = [] → row.length ≤ digitLimit) :
        Derives .limited .value (sign ++ row ++ fraction ++ exponent) :=
      .number (.mk minus whole places power fits)
    split
    · rename_i plain
      simp only [Bool.and_eq_true, Option.isNone_iff_eq_none] at plain
      obtain ⟨noFraction, noExponent⟩ := plain
      split
      · rename_i beyond
        obtain rfl : afterFront = afterPlaces := by
          simpa only [noFraction, Option.map_none, Option.getD_none] using leftFront
        have more : 1 < row.length := by
          rw [counted]
          exact Nat.lt_of_le_of_lt (by decide) beyond
        have stops : Stops afterFront := stops_iff.mpr ⟨kept more, noFraction, noExponent⟩
        refine .long (List.nil_append _).symm .here ?_
        rw [← List.append_assoc]
        exact .mk minus whole counted beyond stops
      · rename_i few
        exact .read same (number fun _ _ => counted ▸ Nat.le_of_not_lt few)
    · rename_i marked
      refine .read same (number fun noFraction noExponent => absurd ?_ marked)
      rw [noPlaces noFraction, noPower noExponent]
      rfl

theorem takeNumber_finds (cs : List Char) :
    Finds (Derives .limited .value) (Opens .value) cs (takeNumber cs) := by
  unfold takeNumber
  split
  · split
    · rename_i rest _ after taken
      have same : '-' :: rest = "-Infinity".toList ++ after := by
        rw [takeWord?_same taken]
        rfl
      exact .read same (.word (by decide))
    · exact takeUnsigned_finds (.inr rfl) true _
  · exact takeUnsigned_finds (.inl rfl) false cs

/-! ## Words -/

theorem takeNamed?_digit {c : Char} (digit : isAsciiDigit c = true) (rest : List Char) :
    takeNamed? (c :: rest) = none := by
  have other (w : Char) (letter : isAsciiDigit w = false) : w ≠ c := by
    rintro rfl
    exact absurd digit (by simp [letter])
  simp [takeNamed?, words, takeWord?, other 'n' rfl, other 't' rfl, other 'f' rfl, other 'N' rfl,
    other 'I' rfl]

theorem takeNamed?_part {cs after : List Char} {value : Value}
    (taken : takeNamed? cs = some (value, after)) :
    ∃ part, cs = part ++ after ∧ Derives .limited .value part := by
  obtain ⟨⟨word, other⟩, member, found⟩ := List.exists_of_findSome?_eq_some taken
  obtain ⟨rest, begins, same⟩ := Option.map_eq_some_iff.mp found
  obtain ⟨-, rfl⟩ := Prod.mk.inj same
  refine ⟨word, takeWord?_same begins, ?_⟩
  have known : ∀ entry ∈ words, Derives .limited .value entry.1 := by
    simp only [words, List.forall_mem_cons]
    exact ⟨.word (by decide), .word (by decide), .word (by decide), .word (by decide),
      .word (by decide), List.forall_mem_nil _⟩
  exact known _ member

end FieldRules.Json
