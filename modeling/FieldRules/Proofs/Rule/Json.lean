import FieldRules.Proofs.Json.Digits
import FieldRules.Rule.Check

/-! # Checks of texts for JSON

A check reads the text. So it accepts more than the standard language, by three words, and where a
whole number has too many digits it does not come to an answer.
-/

namespace FieldRules

open Json

namespace Json

theorem Derives.first {cs : List Char} (derived : Derives .standard .value cs) :
    ∃ c rest, cs = c :: rest ∧ c ≠ 'N' := by
  cases derived with
  | word known =>
      simp only [Dialect.standard, List.mem_cons, List.not_mem_nil, or_false] at known
      rcases known with rfl | rfl | rfl
      · exact ⟨'n', "ull".toList, rfl, by decide⟩
      · exact ⟨'t', "rue".toList, rfl, by decide⟩
      · exact ⟨'f', "alse".toList, rfl, by decide⟩
  | number numeral =>
      obtain ⟨minus, row, places, power, fits⟩ := numeral
      obtain ⟨c, more, rfl, digit⟩ := row.head
      rcases minus with rfl | rfl
      · refine ⟨c, _, rfl, ?_⟩
        rintro rfl
        simp [Text.isAsciiDigit] at digit
      · exact ⟨'-', _, rfl, by decide⟩
  | string => exact ⟨'"', _, rfl, by decide⟩
  | emptyArray | array => exact ⟨'[', _, rfl, by decide⟩
  | emptyObject | object => exact ⟨'\x7b', _, rfl, by decide⟩

theorem not_standard {cs : List Char} : ¬Derives .standard .element ('N' :: cs) := by
  intro derived
  generalize same : 'N' :: cs = whole at derived
  cases derived with
  | @element before value after blank derived behind =>
      cases before with
      | nil =>
          obtain ⟨c, rest, rfl, other⟩ := derived.first
          exact other (List.cons.inj same).1.symm
      | cons c before =>
          obtain rfl := (List.cons.inj same).1
          exact absurd (blank _ List.mem_cons_self) (by decide)

end Json

/-- A check accepts the texts of the extended language in which no whole number is too long, and
    raises where one is. So it answers as the standard language asks for all texts but those, and
    those that have a value only by a word that the standard does not know. -/
theorem Rule.check_json {rule : Rule} (json : rule.kind = .json) (s : String) :
    ((rule.check (.str s)).1 = .ok true ↔
        Derives .extended .element s.toList ∧ ∀ count, ¬RunsLong count s.toList) ∧
      (∀ fault, (rule.check (.str s)).1 = .error fault ↔
        ∃ count, fault = .tooManyDigits count ∧ RunsLong count s.toList) ∧
      (rule.check (.str s)).2 = { rule with violations := [] } ∧
      ((∃ valid, (rule.check (.str s)).1 = .ok valid ∧
          (valid = true ↔ Derives .standard .element s.toList)) ↔
        (∀ count, ¬RunsLong count s.toList) ∧
          (Derives .extended .element s.toList → Derives .standard .element s.toList)) ∧
      (Derives .extended .element s.toList →
        Derives .standard .element s.toList ∨ HasWord s.toList) := by
  have checked : rule.check (.str s) = ((Report.ofJson (.str s)).result,
      { rule with violations := (Report.ofJson (.str s)).codes }) := by
    rw [Rule.check, json]
    rfl
  rw [checked]
  rcases read_decides s with ⟨⟨value, taken⟩, extended, short⟩ | ⟨taken, foreign, short⟩ |
    ⟨count, taken, long⟩
  · have found : Report.ofJson (.str s) = .decided true := by
      simp only [Report.ofJson, taken]
    simp [found, Report.decided, extended, short, extended.standard_or_word]
  · have found : Report.ofJson (.str s) = .decided false := by
      simp only [Report.ofJson, taken]
    have notStandard : ¬Derives .standard .element s.toList := fun derived =>
      foreign derived.of_standard
    simp [found, Report.decided, foreign, short, notStandard]
  · have found : Report.ofJson (.str s) = .faulted (.tooManyDigits count) := by
      simp only [Report.ofJson, taken]
    rw [found]
    refine ⟨?_, fun fault => ?_, rfl, ?_, Derives.standard_or_word⟩
    · simp [Report.faulted, long]
    · simp [Report.faulted, long, eq_comm]
    · simp [Report.faulted, long]

theorem Rule.check_json_sample :
    Derives .extended .element "[NaN]".toList ∧ ∀ count, ¬RunsLong count "[NaN]".toList :=
  have checked := @Rule.check_json (.ofKind .json) rfl "[NaN]"
  checked.1.mp rfl

/-- A word of the extended language is accepted, although the standard does not know it, and a
    whole number of the standard that is too long is not answered. -/
theorem Rule.check_json_astray :
    (((Rule.ofKind .json).check (.str "NaN")).1 = .ok true ∧
        ¬Derives .standard .element "NaN".toList) ∧
      ((Rule.ofKind .json).check (.str (String.ofList (List.replicate 4301 '1')))).1 =
        .error (.tooManyDigits 4301) := by
  have raises {count : Nat} (beyond : Number.digitLimit < count) :
      ((Rule.ofKind .json).check (.str (String.ofList (List.replicate count '1')))).1 =
        .error (.tooManyDigits count) := by
    have found : Report.ofJson (.str (String.ofList (List.replicate count '1'))) =
        .faulted (.tooManyDigits count) := by
      simp only [Report.ofJson, read_ones beyond]
    exact congrArg Report.result found
  exact ⟨⟨rfl, not_standard⟩, raises (by decide)⟩

end FieldRules
