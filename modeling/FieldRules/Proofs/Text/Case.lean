import FieldRules.Text.Blank
import FieldRules.Text.Case
import FieldRules.Text.Numeral

/-! # Small letters and the other classes

No run of capitals meets the blanks, the digits or ASCII, and neither do their small letters, but
for the sign of the kelvin, whose small letter is a k. So a character that is not of ASCII keeps
its class when it is made small.
-/

namespace FieldRules.Text

-- What is asked of the characters of a list is not looked for among all characters.
instance (priority := 1100) forallMemDecidable {p : Char → Prop} [DecidablePred p]
    (cs : List Char) : Decidable (∀ c ∈ cs, p c) := List.decidableBAll p cs

theorem forall_ascii {p : Char → Prop} (codes : ∀ code < 128, p (Char.ofNat code)) {c : Char}
    (ascii : c.toNat < 128) : p c := by
  have found := codes c.toNat ascii
  rwa [Char.ofNat_toNat] at found

theorem toLower_wide {c : Char} (wide : 128 ≤ c.toNat) : c.toLower = c := by
  delta Char.toLower
  rw [dif_neg]
  rintro ⟨_, low⟩
  have below : c.toNat ≤ 90 := UInt32.le_iff_toNat_le.mp low
  omega

theorem not_ascii_of_wide {c : Char} (wide : 128 ≤ c.toNat) :
    isAsciiLetter c = false ∧ isAsciiDigit c = false := by
  have high : ∀ {bound : Char}, bound.toNat < 128 → ¬c ≤ bound := by
    intro bound small low
    have : c.toNat ≤ bound.toNat := UInt32.le_iff_toNat_le.mp low
    omega
  have outside := @high 'z' (by decide)
  have outsideCapital := @high 'Z' (by decide)
  have outsideDigit := @high '9' (by decide)
  simp [isAsciiLetter, isAsciiDigit, outside, outsideCapital, outsideDigit]

/-- The sign of the kelvin. -/
def kelvin : Nat := 0x212A

/-- Code points that no run of capitals meets, nor their small letters, except that of the kelvin:
    ASCII, the other cases of its letters, the surrogates, the blanks and the digits. -/
def apartRanges : List CodeRange :=
  [(0, 127), (0x130, 0x131), (0x17F, 0x17F), (kelvin, kelvin), (0xD800, 0xDFFF), (0x85, 0x85),
    (0xA0, 0xA0), (0x1680, 0x1680), (0x2000, 0x200A), (0x2028, 0x2029), (0x202F, 0x202F),
    (0x205F, 0x205F), (0x3000, 0x3000)] ++ decimalZeros.map fun first => (first, first + 9)

/-- Whether a character is none of those. -/
def IsFree (c : Char) : Prop :=
  ∀ range ∈ apartRanges, c.toNat < range.1 ∨ range.2 < c.toNat

/-- Whether none of those lies between two code points. -/
def isApart (low high : Nat) : Bool :=
  apartRanges.all fun range => Nat.blt high range.1 || Nat.blt range.2 low

theorem isApart_iff {low high : Nat} :
    isApart low high = true ↔ ∀ range ∈ apartRanges, high < range.1 ∨ range.2 < low := by
  simp only [isApart, List.all_eq_true, Bool.or_eq_true, Nat.blt_eq]

/-- What the runs of capitals have in common. -/
theorem runs_known : ∀ run ∈ lowerRuns,
    (128 ≤ run.first ∧ 0 ≤ run.first + run.shift ∧ run.last + run.shift < 0x110000) ∧
      (run.first = kelvin → run.last = kelvin) ∧
      (run.first ≠ kelvin → isApart run.first run.last = true ∧
        isApart (run.first + run.shift).toNat (run.last + run.shift).toNat = true) := by
  decide +kernel

theorem toNat_ofNat {code : Nat} (valid : code.isValidChar) : (Char.ofNat code).toNat = code := by
  rw [Char.ofNat, dif_pos valid]
  rfl

/-- The characters beyond ASCII that have a letter of ASCII as another case. -/
def strayLetters : List Char := ['\u0130', '\u0131', '\u017f', '\u212a']

theorem isFree_stray {c : Char} (free : IsFree c) : c ∉ strayLetters := by
  have marked : ∀ c ∈ strayLetters,
      ∃ range ∈ apartRanges, range.1 ≤ c.toNat ∧ c.toNat ≤ range.2 := by decide
  intro stray
  obtain ⟨range, member, low, high⟩ := marked c stray
  have := free range member
  omega

/-- Beyond ASCII, a character that is made small is free, and so is its small letter. -/
theorem lowerChar_free {c : Char} (wide : 128 ≤ c.toNat) (nostray : c ∉ strayLetters) :
    lowerChar c = c ∨ (IsFree c ∧ IsFree (lowerChar c)) := by
  have apart {code : Nat} (member : Char.ofNat code ∈ strayLetters) : c.toNat ≠ code := by
    rintro rfl
    rw [Char.ofNat_toNat] at member
    exact nostray member
  have undotted : c.toNat ≠ 0x130 := apart (by decide)
  have unscaled : c.toNat ≠ kelvin := apart (by decide)
  have lowered : lowerChar c = Char.ofNat (CaseRun.apply lowerRuns c.toNat) := by
    rw [lowerChar, if_neg (Nat.not_lt.mpr wide), if_neg (by simpa using undotted)]
  cases found : lowerRuns.find? (·.covers c.toNat) with
  | none =>
      left
      rw [lowered, CaseRun.apply, found, Char.ofNat_toNat]
  | some run =>
      right
      have member := List.mem_of_find?_eq_some found
      have covered := List.find?_some found
      simp only [CaseRun.covers, Bool.and_eq_true, decide_eq_true_eq] at covered
      obtain ⟨⟨low, high⟩, _⟩ := covered
      obtain ⟨bounded, single, known⟩ := runs_known run member
      have ordinary : run.first ≠ kelvin := by
        intro same
        have := single same
        omega
      obtain ⟨apart, smallApart⟩ := known ordinary
      rw [isApart_iff] at apart smallApart
      have surrogates := smallApart (0xD800, 0xDFFF) (by decide)
      have code : (lowerChar c).toNat = (c.toNat + run.shift).toNat := by
        rw [lowered, CaseRun.apply, found]
        refine toNat_ofNat ?_
        simp only [Nat.isValidChar, Int.ofNat_eq_natCast]
        omega
      refine ⟨fun range inside => ?_, fun range inside => ?_⟩
      · have := apart range inside
        omega
      · have := smallApart range inside
        omega

theorem isBlank_free {c : Char} (free : IsFree c) : isBlank c = false := by
  obtain ⟨places, _⟩ := List.forall_mem_append.mp free
  simp only [List.forall_mem_cons] at places
  have nonspace : (c == ' ') = false := by
    rw [beq_eq_false_iff_ne]
    rintro rfl
    have := free (0, 127) (by decide)
    revert this
    decide
  simp only [isBlank, isAsciiBlank, isWideBlank, nonspace, Bool.false_or, Bool.or_eq_false_iff,
    Bool.and_eq_false_iff, decide_eq_false_iff_not, beq_eq_false_iff_ne]
  omega

theorem isDigit_free {c : Char} (free : IsFree c) : isDigit c = false := by
  have wide := free (0, 127) (by decide)
  have none : decimalZeros.find? (fun first => first ≤ c.toNat && c.toNat ≤ first + 9) = none := by
    rw [List.find?_eq_none]
    intro first member
    have := free (first, first + 9) (List.mem_append_right _ (List.mem_map_of_mem member))
    simp only [Bool.and_eq_true, decide_eq_true_eq]
    omega
  rw [isDigit, digitValue?, if_neg (by omega), none]
  rfl

theorem digits_visible : ∀ first ∈ decimalZeros, ∀ offset < 10,
    isBlank (Char.ofNat (first + offset)) = false := by decide

/-- Beyond ASCII too, no digit is a blank. -/
theorem isBlank_digit {c : Char} (digit : isDigit c = true) : isBlank c = false := by
  by_cases ascii : c.toNat < 128
  · exact forall_ascii (p := fun c => isDigit c = true → isBlank c = false) (by decide) ascii digit
  rw [isDigit, digitValue?, if_neg ascii, Option.isSome_map] at digit
  obtain ⟨first, found⟩ := Option.isSome_iff_exists.mp digit
  have placed := List.find?_some found
  simp only [Bool.and_eq_true, decide_eq_true_eq] at placed
  have member := List.mem_of_find?_eq_some found
  have visible := digits_visible first member (c.toNat - first) (by omega)
  rwa [Nat.add_sub_cancel' placed.1, Char.ofNat_toNat] at visible

/-! ## Characters by their case -/

/-- A character that is no case of one of ASCII. -/
structure IsForeign (c : Char) : Prop where
  wide : 128 ≤ c.toNat
  nostray : c ∉ strayLetters
  small : 128 ≤ (lowerChar c).toNat
  smallStray : lowerChar c ∉ strayLetters

theorem IsForeign.ne_ascii {c known : Char} (foreign : IsForeign c) (ascii : known.toNat < 128) :
    c ≠ known := by
  rintro rfl
  exact Nat.not_lt.mpr foreign.wide ascii

theorem ascii_or_stray_or_foreign (c : Char) :
    c.toNat < 128 ∨ c ∈ strayLetters ∨ IsForeign c := by
  by_cases ascii : c.toNat < 128
  · exact .inl ascii
  by_cases stray : c ∈ strayLetters
  · exact .inr (.inl stray)
  have wide := Nat.not_lt.mp ascii
  refine .inr (.inr ?_)
  rcases lowerChar_free wide stray with same | ⟨_, free⟩
  · exact ⟨wide, stray, by rw [same]; exact wide, by rw [same]; exact stray⟩
  · have := free (0, 127) (by decide)
    exact ⟨wide, stray, by omega, isFree_stray free⟩

/-- What is checked on ASCII and on the strays, and holds of foreign characters, holds of all. -/
theorem forall_char {p : Char → Prop} (codes : ∀ code < 128, p (Char.ofNat code))
    (strays : ∀ c ∈ strayLetters, p c) (others : ∀ c, IsForeign c → p c) (c : Char) : p c := by
  rcases ascii_or_stray_or_foreign c with ascii | stray | foreign
  · exact forall_ascii codes ascii
  · exact strays c stray
  · exact others c foreign

theorem small_class {p : Char → Bool} (codes : ∀ code < 128,
    p (lowerChar (Char.ofNat code)) = p (Char.ofNat code))
    (strays : ∀ c ∈ strayLetters, p (lowerChar c) = p c)
    (none : ∀ {c}, IsFree c → p c = false) (c : Char) : p (lowerChar c) = p c := by
  by_cases ascii : c.toNat < 128
  · exact forall_ascii (p := fun c => p (lowerChar c) = p c) codes ascii
  by_cases stray : c ∈ strayLetters
  · exact strays c stray
  rcases lowerChar_free (Nat.not_lt.mp ascii) stray with same | ⟨free, smallFree⟩
  · rw [same]
  · rw [none free, none smallFree]

/-- A small letter is a blank just if the letter is. -/
theorem isBlank_lowerChar (c : Char) : isBlank (lowerChar c) = isBlank c :=
  small_class (by decide) (by decide) isBlank_free c

/-- A small letter is a digit just if the letter is. -/
theorem isDigit_lowerChar (c : Char) : isDigit (lowerChar c) = isDigit c :=
  small_class (by decide) (by decide) isDigit_free c

/-- A text of ASCII is made small character by character. -/
theorem lowerAfter_ascii {cs : List Char} (ascii : ∀ c ∈ cs, c.toNat < 128) (before : List Char) :
    lowerAfter before cs = cs.map lowerChar := by
  induction cs generalizing before with
  | nil => rfl
  | cons c cs ih =>
      obtain ⟨first, others⟩ := List.forall_mem_cons.mp ascii
      have sigma : (c.toNat == 0x3A3) = false := by simp; omega
      have dotted : (c.toNat == 0x130) = false := by simp; omega
      simp only [lowerAfter, sigma, dotted, ih others, List.map_cons, Bool.false_eq_true, if_false]
      rfl

end FieldRules.Text
