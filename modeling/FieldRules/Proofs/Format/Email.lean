import FieldRules.Pattern.Reader
import FieldRules.Proofs.Pattern.Language
import FieldRules.Proofs.Text.Pieces
import FieldRules.Rule.Check

/-! # The grammar of email addresses

A text is accepted just if it is an address, or an address with a line feed behind it. That is also
what the pattern of addresses says, whose domain may run over the dot in front of the top-level
domain, so that its matches are found by going back.
-/

namespace FieldRules

open Text

namespace Format

/-! ## A line feed at the end -/

theorem withoutFinalBreak_append (cs : List Char) : withoutFinalBreak (cs ++ ['\n']) = cs := by
  induction cs with
  | nil => rfl
  | cons c rest ih =>
      rw [List.cons_append, withoutFinalBreak, ih]
      intro _ none
      exact List.cons_ne_nil _ _ (List.append_eq_nil_iff.mp none).2

theorem withoutFinalBreak_eq_self {cs : List Char} (unbroken : cs.getLast? ≠ some '\n') :
    withoutFinalBreak cs = cs := by
  induction cs with
  | nil => rfl
  | cons c rest ih =>
      cases rest with
      | nil =>
          rw [withoutFinalBreak, withoutFinalBreak]
          rintro rfl
          exact absurd rfl unbroken
      | cons d after =>
          rw [withoutFinalBreak, ih (by simpa using unbroken)]
          intro _ none
          nomatch none

/-- A language without line feeds at the end is asked for a text without one just if the text is
    a word of it, or a word with a line feed behind it. -/
theorem withoutFinalBreak_iff {language : List Char → Prop}
    (unbroken : ∀ w, language w → w.getLast? ≠ some '\n') (cs : List Char) :
    language (withoutFinalBreak cs) ↔ ∃ w, language w ∧ (cs = w ∨ cs = w ++ ['\n']) := by
  constructor
  · intro member
    refine ⟨_, member, ?_⟩
    by_cases broken : cs.getLast? = some '\n'
    · obtain ⟨before, rfl⟩ := List.getLast?_eq_some_iff.mp broken
      rw [withoutFinalBreak_append]
      exact .inr rfl
    · rw [withoutFinalBreak_eq_self broken]
      exact .inl rfl
  · rintro ⟨w, member, rfl | rfl⟩
    · rw [withoutFinalBreak_eq_self (unbroken cs member)]
      exact member
    · rw [withoutFinalBreak_append]
      exact member

namespace Email

/-- The addresses: a local part, an at sign, a domain, a dot and a top-level domain. -/
inductive Address : List Char → Prop where
  | mk {name domain top : List Char}
      (named : name ≠ []) (nameChars : ∀ c ∈ name, isLocalChar c = true)
      (placed : domain ≠ []) (domainChars : ∀ c ∈ domain, isDomainChar c = true)
      (long : 2 ≤ top.length) (letters : ∀ c ∈ top, isAsciiLetter c = true) :
      Address (name ++ '@' :: (domain ++ '.' :: top))

theorem cutLast_iff {separator : Char} {cs before after : List Char} :
    cutLast separator cs = (before, some after) ↔
      cs = before ++ separator :: after ∧ separator ∉ after := by
  constructor
  · intro same
    unfold cutLast at same
    split at same
    · nomatch same
    · rename_i first rest parted
      obtain ⟨rfl, whole⟩ := Prod.mk.inj same
      obtain rfl := Option.some.inj whole
      have parts := cut_iff.mpr parted
      generalize turned : cs.reverse = back at parts
      cases parts with
      | apart uncut =>
          rw [← cs.reverse_reverse, turned]
          simpa using uncut
  · rintro ⟨rfl, uncut⟩
    have turned : (before ++ separator :: after).reverse =
        after.reverse ++ separator :: before.reverse := by simp
    have parted := cut_apart (mt List.mem_reverse.mp uncut) before.reverse
    rw [cutLast, turned, parted]
    simp

theorem isHost_iff {cs : List Char} :
    isHost cs = true ↔ ∃ domain top, cs = domain ++ '.' :: top ∧ domain ≠ [] ∧
      (∀ c ∈ domain, isDomainChar c = true) ∧ 2 ≤ top.length ∧
      ∀ c ∈ top, isAsciiLetter c = true := by
  constructor
  · intro accepted
    unfold isHost at accepted
    split at accepted
    · nomatch accepted
    · rename_i domain top parted
      simp only [Bool.and_eq_true, Bool.not_eq_true', List.isEmpty_eq_false_iff, List.all_eq_true,
        decide_eq_true_eq] at accepted
      obtain ⟨⟨⟨placed, domainChars⟩, long⟩, letters⟩ := accepted
      exact ⟨domain, top, (cutLast_iff.mp parted).1, placed, domainChars, long, letters⟩
  · rintro ⟨domain, top, rfl, placed, domainChars, long, letters⟩
    have uncut : '.' ∉ top := fun inside => nomatch letters '.' inside
    rw [isHost, cutLast_iff.mpr ⟨rfl, uncut⟩]
    simpa [placed, long] using ⟨domainChars, letters⟩

theorem isAddress_iff {cs : List Char} : isAddress cs = true ↔ Address cs := by
  constructor
  · intro accepted
    unfold isAddress at accepted
    split at accepted
    · nomatch accepted
    · rename_i name host parted
      simp only [Bool.and_eq_true, Bool.not_eq_true', List.isEmpty_eq_false_iff,
        List.all_eq_true] at accepted
      obtain ⟨⟨named, nameChars⟩, accepted⟩ := accepted
      obtain ⟨domain, top, rfl, placed, domainChars, long, letters⟩ := isHost_iff.mp accepted
      cases cut_iff.mpr parted with
      | apart => exact ⟨named, nameChars, placed, domainChars, long, letters⟩
  · rintro ⟨named, nameChars, placed, domainChars, long, letters⟩
    rename_i name domain top
    have uncut : '@' ∉ name := fun inside => nomatch nameChars '@' inside
    have host := isHost_iff.mpr ⟨domain, top, rfl, placed, domainChars, long, letters⟩
    rw [isAddress, cut_apart uncut]
    simpa [named, host] using nameChars

theorem Address.unbroken {cs : List Char} (address : Address cs) : cs.getLast? ≠ some '\n' := by
  intro last
  have inside := List.mem_of_getLast? last
  cases address with
  | mk _ nameChars _ domainChars _ letters =>
      simp only [List.mem_append, List.mem_cons] at inside
      rcases inside with here | same | here | same | here
      · nomatch nameChars _ here
      · nomatch same
      · nomatch domainChars _ here
      · nomatch same
      · nomatch letters _ here

theorem accepts_iff {s : String} :
    accepts s = true ↔ ∃ w, Address w ∧ (s.toList = w ∨ s.toList = w ++ ['\n']) := by
  rw [accepts, isAddress_iff]
  exact withoutFinalBreak_iff (fun _ => Address.unbroken) s.toList

/-- The pattern of addresses. -/
def source : String := "^[a-zA-Z0-9._%+-]+@[a-zA-Z0-9.-]+\\.[a-zA-Z]\x7b2,\x7d$"

def nameItems : List Pattern.SetItem :=
  [.range 97 122, .range 65 90, .range 48 57, .code 46, .code 95, .code 37, .code 43, .code 45]

def domainItems : List Pattern.SetItem :=
  [.range 97 122, .range 65 90, .range 48 57, .code 46, .code 45]

def letterItems : List Pattern.SetItem := [.range 97 122, .range 65 90]

/-- The parts of the pattern between its anchors. -/
def parts : List Pattern.Node :=
  [.repeated .greedy 1 none (.set false nameItems), .literal '@'.toNat false,
    .repeated .greedy 1 none (.set false domainItems), .literal '.'.toNat false,
    .repeated .greedy 2 none (.set false letterItems)]

theorem read_source : Pattern.read source = .ok ⟨source, {}, .line parts, []⟩ := by decide +kernel

theorem toNat_beq (c expected : Char) : (c.toNat == expected.toNat) = (c == expected) := by
  rw [Bool.eq_iff_iff]
  simp [Char.toNat_inj]

theorem mem_mark {mark : Char} {w : List Char} :
    w ∈ (Pattern.Node.literal mark.toNat false).language {} ↔ w = [mark] := by
  rw [Pattern.Node.language_literal, Pattern.mem_single]
  simp [Pattern.isLiteral, toNat_beq]

/-- The sets of the pattern are the classes of characters. -/
theorem inSet_classes (c : Char) :
    Pattern.inSet {} false nameItems c = isLocalChar c ∧
      Pattern.inSet {} false domainItems c = isDomainChar c ∧
      Pattern.inSet {} false letterItems c = isAsciiLetter c := by
  simp [Pattern.inSet, nameItems, domainItems, letterItems, Pattern.SetItem.holds, isLocalChar,
    isDomainChar, isWordChar, isAsciiLetter, isAsciiDigit, Char.le_def, UInt32.le_iff_toNat_le,
    ← toNat_beq, Bool.or_assoc]

theorem mem_class {items : List Pattern.SetItem} {test : Char → Bool}
    (same : ∀ c, Pattern.inSet {} false items c = test c) {least : Nat} {w : List Char} :
    w ∈ (Pattern.Node.repeated .greedy least none (.set false items)).language {} ↔
      least ≤ w.length ∧ ∀ c ∈ w, test c = true := by
  rw [Pattern.Node.mem_repeated_set same]
  simp

/-- The words of the pattern are the addresses. -/
theorem language_parts (w : List Char) :
    w ∈ (parts.map (Pattern.Node.language {})).prod ↔ Address w := by
  simp only [parts, List.map_cons, List.map_nil, List.prod_cons, List.prod_nil, mul_one,
    Language.mem_mul, mem_mark, exists_eq_left, mem_class fun c => (inSet_classes c).1,
    mem_class fun c => (inSet_classes c).2.1, mem_class fun c => (inSet_classes c).2.2]
  constructor
  · rintro ⟨name, ⟨named, nameChars⟩, _, ⟨_, ⟨domain, ⟨placed, domainChars⟩, _,
      ⟨top, ⟨long, letters⟩, rfl⟩, rfl⟩, rfl⟩, rfl⟩
    exact ⟨List.length_pos_iff.mp named, nameChars, List.length_pos_iff.mp placed, domainChars,
      long, letters⟩
  · rintro ⟨named, nameChars, placed, domainChars, long, letters⟩
    have some := List.length_pos_iff.mpr named
    have more := List.length_pos_iff.mpr placed
    exact ⟨_, ⟨some, nameChars⟩, _, ⟨_, ⟨_, ⟨more, domainChars⟩, _, ⟨_, ⟨long, letters⟩, rfl⟩, rfl⟩,
      rfl⟩, rfl⟩

theorem matchesStart_iff {pattern : Pattern} (read : Pattern.read source = .ok pattern)
    (s : String) : pattern.matchesStart s = true ↔ accepts s = true := by
  rw [read_source] at read
  obtain rfl := Except.ok.inj read
  rw [accepts_iff, Pattern.matchesStart, Pattern.matchStart?_line rfl (by decide) rfl]
  simp only [language_parts]

end Email

end Format

open Format Email

/-- A check accepts a text just if it is an address or an address with a line feed behind it, and
    otherwise records the one violation. So it agrees with the grammar on all texts but the second
    kind. The pattern of addresses, when it is read, matches the same texts. -/
theorem Rule.check_email {rule : Rule} (email : rule.kind = .email) (s : String) :
    (accepts s = true ↔ ∃ w, Address w ∧ (s.toList = w ∨ s.toList = w ++ ['\n'])) ∧
      rule.check (.str s) = (.ok (accepts s),
        { rule with violations := if accepts s then [] else [.str "format"] }) ∧
      (((rule.check (.str s)).1 = .ok true ↔ Address s.toList) ↔
        ¬∃ w, Address w ∧ s.toList = w ++ ['\n']) ∧
      ∃ pattern, Pattern.read source = .ok pattern ∧
        (pattern.matchesStart s = true ↔ (rule.check (.str s)).1 = .ok true) := by
  have checked : rule.check (.str s) = (.ok (accepts s),
      { rule with violations := if accepts s then [] else [.str "format"] }) := by
    rw [Rule.check, email]
    simp only [RuleKind.report]
    cases accepts s <;> rfl
  have passed : (rule.check (.str s)).1 = .ok true ↔ accepts s = true := by
    rw [checked]
    simp
  refine ⟨accepts_iff, checked, ?_, _, read_source, ?_⟩
  · rw [passed, accepts_iff]
    constructor
    · rintro agree ⟨w, address, broken⟩
      have whole := agree.mp ⟨w, address, .inr broken⟩
      refine whole.unbroken ?_
      rw [broken]
      simp
    · intro apart
      constructor
      · rintro ⟨w, address, rfl | broken⟩
        · exact address
        · exact absurd ⟨w, address, broken⟩ apart
      · intro address
        exact ⟨_, address, .inl rfl⟩
  · rw [passed, matchesStart_iff read_source]

theorem Rule.check_email_sample :
    ∃ w, Address w ∧ ("a@b.co".toList = w ∨ "a@b.co".toList = w ++ ['\n']) :=
  have checked := @Rule.check_email (.ofKind .email) rfl "a@b.co"
  checked.1.mp (by decide)

/-- An address with a line feed behind it is accepted, although it is no address. -/
theorem Rule.check_email_broken :
    ((Rule.ofKind .email).check (.str "a@b.co\n")).1 = .ok true ∧ ¬Address "a@b.co\n".toList :=
  ⟨rfl, fun address => address.unbroken rfl⟩

end FieldRules
