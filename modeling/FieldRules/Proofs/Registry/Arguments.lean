import FieldRules.Proofs.Number.Nearest
import FieldRules.Proofs.Registry.Faults
import FieldRules.Proofs.Registry.Products
import FieldRules.Proofs.Registry.RoundTrip
import FieldRules.Proofs.Text.Case

/-! # Whole numbers in rule strings

A rule string names a built-in class and gives it a whole number. It has one token, whose argument
is the decimal text of the number; what is read from that text is the number again, unless it has
too many digits. So the string makes the rule that the class makes from the text, or says why the
class makes none.
-/

namespace FieldRules

open Text

/-! ## Reading decimal text -/

namespace Number

theorem digitRow_digits {cs : List Char} (digits : ∀ c ∈ cs, isAsciiDigit c = true)
    {context : DigitContext} (apart : context ≠ .afterUnderscore) :
    digitRow context cs = some (cs.map (·.toNat - 48), []) := by
  induction cs generalizing context with
  | nil => rw [digitRow, if_neg apart, List.map_nil]
  | cons c rest ih =>
      have digit := digits c List.mem_cons_self
      have other : c ≠ '_' := by
        rintro rfl
        nomatch digit
      have value : asciiDigitValue? c = some (c.toNat - 48) := if_pos digit
      have more : digitRow .afterDigit rest = some (rest.map (·.toNat - 48), []) :=
        ih (fun d member => digits d (List.mem_cons_of_mem c member)) (by decide)
      rw [digitRow, if_neg other, value]
      simp only [more, Option.map_some, List.map_cons]

/-- The decimal text of a whole number is read as the number, unless it is too long. -/
theorem readInteger_toString (n : Int) :
    readInteger (toString n).toList =
      if n.natAbs < textBound then .ok n
      else .error (.tooManyDigits (Nat.toDigits 10 n.natAbs).length) := by
  have row := digitRow_digits (toDigits_digits n.natAbs) (show DigitContext.start ≠ _ by decide)
  have long : digitLimit < (Nat.toDigits 10 n.natAbs).length ↔ ¬n.natAbs < textBound := by
    rw [← Nat.not_le]
    exact not_congr (length_toDigits_le (by decide))
  have some : (Nat.toDigits 10 n.natAbs).isEmpty = false :=
    List.isEmpty_eq_false_iff.mpr Nat.toDigits_ne_nil
  simp only [readInteger, literalChars_plain (toString_plain n), takeSign_toString, row,
    List.length_map, List.isEmpty_map, some, List.isEmpty_nil, ofDigits_toDigits, long]
  by_cases short : n.natAbs < textBound
  · have signed : (if n < 0 then -(n.natAbs : Int) else n.natAbs) = n := by
      split <;> omega
    simp only [short, not_true_eq_false, if_false, if_true, Bool.false_or, Bool.not_true,
      Bool.false_eq_true, decide_eq_true_eq, signed]
  · simp [short]

end Number

/-! ## One token -/

namespace Registry

variable {w : Workspace} {spec : String} {token : Token}

theorem reading_current (tokenized : w.registry.tokenize spec = .ok [token])
    (current : ∀ kept, w.registry.cache.get? spec = some kept →
      w.registry.tokenize spec = .ok kept) : w.registry.reading spec = .ok [token] := by
  rw [reading]
  cases cached : w.registry.cache.get? spec with
  | none => exact tokenized
  | some kept => exact (current kept cached).symm.trans tokenized

theorem parse_class {c : RuleClass} (made : token.factory = .ofClass c)
    (given : w.registry.reading spec = .ok [token]) :
    (∀ rule, c.build (token.arguments.map .str) = .ok rule →
        ∃ id w', parse spec w = (.ok [id], w') ∧ w'.rules.item id = rule) ∧
      ∀ cause, c.build (token.arguments.map .str) = .error cause → (parse spec w).1 =
        .error (Factory.buildFault token.identifier (token.arguments.map .str) cause) := by
  have read : (tokens spec w).1 = .ok [token] := (tokens_outcome spec w).trans given
  rcases ran : tokens spec w with ⟨outcome, between⟩
  rw [ran] at read
  obtain rfl : outcome = .ok [token] := read
  have built := Token.build_ofClass (w := between) made
  simp only [parse, Task.bind_eq, ran, buildTokens, built]
  cases c.build (token.arguments.map .str) with
  | error cause => simp
  | ok rule => exact ⟨fun _ same => ⟨_, _, rfl, by simpa [Shelf.add] using same⟩, by simp⟩

end Registry

/-! ## A class and a whole number -/

namespace BuiltIn

/-- The rule string of a class with a whole number as its argument. -/
def textOf (c : BuiltIn) (n : Int) : String := c.identifier ++ ":" ++ toString n

/-- The token of that string, when the class has its own identifier. -/
def tokenOf (c : BuiltIn) (n : Int) : Token :=
  ⟨c.identifier, [toString n], .ofClass (.builtIn c)⟩

theorem identifier_clear (c : BuiltIn) :
    c.identifier ≠ "" ∧ '|' ∉ c.identifier.toList ∧ ':' ∉ c.identifier.toList ∧
      ∀ d ∈ c.identifier.toList, isBlank d = false := by
  cases c with
  | regex characters =>
      show "regex" ≠ "" ∧ '|' ∉ "regex".toList ∧ ':' ∉ "regex".toList ∧
        ∀ d ∈ "regex".toList, isBlank d = false
      decide
  | _ => decide

theorem writable (c : BuiltIn) {entries : Keyed Factory} {factory : Factory}
    (listed : entries.get? c.identifier = some factory) (n : Int) :
    PlainRule.Writable entries (c.identifier, [toString n]) := by
  have absent (d : Char) (other : d ≠ '-' ∧ isAsciiDigit d = false) : d ∉ (toString n).toList := by
    intro member
    rcases Number.toString_plain n d member with sign | digit
    · exact other.1 sign
    · rw [other.2] at digit
      nomatch digit
  obtain ⟨named, uncut, unparted, visible⟩ := c.identifier_clear
  constructor
  · exact named
  · simp [Keyed.has, listed]
  · exact ⟨uncut, unparted⟩
  · exact fun d first => visible d (List.mem_of_mem_head? first)
  · exact fun d last => visible d (List.mem_of_getLast? last)
  · intro argument member
    obtain rfl := List.mem_singleton.mp member
    exact ⟨absent '|' (by decide), absent ',' (by decide)⟩
  · intro argument member d last
    obtain rfl : toString n = argument := by simpa using member
    rcases Number.toString_plain n d (List.mem_of_getLast? last) with rfl | digit
    · rfl
    · have code := Number.isAsciiDigit_iff.mp digit
      have other : d ≠ ' ' := by
        rintro rfl
        simp at code
      simp [isBlank, isAsciiBlank, isWideBlank, other]
      omega

theorem tokenize_textOf (c : BuiltIn) {registry : Registry}
    (listed : registry.entries.get? c.identifier = some (.ofClass (.builtIn c))) (n : Int) :
    registry.tokenize (c.textOf n) = .ok [c.tokenOf n] := by
  have writable : PlainRule.AllWritable registry.entries [(c.identifier, [toString n])] :=
    ⟨List.cons_ne_nil _ _, List.forall_mem_singleton.mpr (c.writable listed n)⟩
  obtain ⟨read, tokenized, plain⟩ := Registry.tokenize_text writable
  have makers : ∀ token ∈ [c.tokenOf n],
      registry.entries.get? token.identifier = some token.factory :=
    List.forall_mem_singleton.mpr listed
  have same : [c.tokenOf n] = read :=
    Registry.eq_of_plains plain.symm makers (Token.readAll_factory tokenized)
  rw [same]
  exact tokenized

/-- The rule string of a class makes the rule that the class makes from the text of the number, if
    the class is listed and what was kept of the string still holds. -/
theorem parse_textOf (c : BuiltIn) {w : Workspace}
    (listed : w.registry.entries.get? c.identifier = some (.ofClass (.builtIn c))) (n : Int)
    (current : ∀ kept, w.registry.cache.get? (c.textOf n) = some kept →
      w.registry.tokenize (c.textOf n) = .ok kept) :
    (∀ rule, c.build [.str (toString n)] = .ok rule →
        ∃ id w', Registry.parse (c.textOf n) w = (.ok [id], w') ∧ w'.rules.item id = rule) ∧
      ∀ cause, c.build [.str (toString n)] = .error cause → (Registry.parse (c.textOf n) w).1 =
        .error (Factory.buildFault c.identifier [.str (toString n)] cause) := by
  have made : (c.tokenOf n).factory = .ofClass (.builtIn c) := rfl
  exact Registry.parse_class made (Registry.reading_current (c.tokenize_textOf listed n) current)

end BuiltIn

end FieldRules
