import FieldRules.Proofs.Number.Literals
import FieldRules.Proofs.Registry.Bounds

/-! # Whole numbers are numbers

What passes as a whole number passes as a number, and a text that does so can also be given as a
bound, although such a text has many forms: blanks around it, a sign, underscores between digits,
zeros in front and the digits of any script.
-/

namespace FieldRules

open Number

theorem Report.ofInteger_text {text : String} :
    (Report.ofInteger (.str text)).result = .ok true ↔ ∃ n, readInteger text.toList = .ok n := by
  simp only [Report.ofInteger]
  cases readInteger text.toList with
  | ok n => exact ⟨fun _ => ⟨n, rfl⟩, fun _ => rfl⟩
  | error cause => simp [Report.decided]

theorem Report.ofNumeric_of_ofInteger {value : Value}
    (whole : (Report.ofInteger value).result = .ok true) :
    (Report.ofNumeric value).result = .ok true := by
  cases value with
  | int n => rfl
  | float x => rfl
  | str text =>
      obtain ⟨n, read⟩ := Report.ofInteger_text.mp whole
      obtain ⟨negative, -, denoted⟩ := readDecimal?_of_readInteger read
      simp only [Report.ofNumeric, denoted]
      rfl
  | _ => exact whole

/-- The text of a whole number is read as a bound to 53 digits. -/
theorem Value.toBound_of_readInteger {text : String} {n : Int}
    (read : readInteger text.toList = .ok n) : (Value.str text).toBound = .ok (.rounded n) := by
  obtain ⟨negative, sign, denoted⟩ := readDecimal?_of_readInteger read
  have binary : (Value.str text).toBinary = .ok (.ofRatio negative n.natAbs 1) := by
    simp only [Value.toBinary, denoted]
  obtain ⟨ofWhole, ofBinary⟩ := Value.toBound_binary binary
  rcases Binary64.ofRatio_signed sign with ⟨whole, found, same⟩ | ⟨none, same⟩
  · rw [same]
    exact ofWhole whole found
  · rw [same]
    exact ofBinary none

/-- Whatever passes a check for whole numbers passes one for numbers. A text that passes is that of
    a whole number, and as a least or a greatest measure it gives this number to 53 digits. -/
theorem Rule.numeric_of_integer {whole decimal : Rule} (isWhole : whole.kind = .integer)
    (isDecimal : decimal.kind = .numeric) :
    (∀ value, (whole.check value).1 = .ok true → (decimal.check value).1 = .ok true) ∧
      ∀ text : String, (whole.check (.str text)).1 = .ok true →
        ∃ n, readInteger text.toList = .ok n ∧
          BuiltIn.min.build [.str text] = .ok (.ofKind (.min (.rounded n))) ∧
          BuiltIn.max.build [.str text] = .ok (.ofKind (.max (.rounded n))) := by
  simp only [Rule.check, isWhole, isDecimal, RuleKind.report]
  refine ⟨fun value => Report.ofNumeric_of_ofInteger, ?_⟩
  intro text passed
  obtain ⟨n, read⟩ := Report.ofInteger_text.mp passed
  have bound := Value.toBound_of_readInteger read
  exact ⟨n, read, Limit.least.build_text bound, Limit.greatest.build_text bound⟩

/-- A no-break space, a minus, a zero in front, an underscore and an Arabic digit. -/
theorem Rule.numeric_of_integer_sample :
    ((Rule.ofKind .integer).check (.str "\u00a0-01_٢ ")).1 = .ok true ∧
      ((Rule.ofKind .numeric).check (.str "\u00a0-01_٢ ")).1 = .ok true ∧
      BuiltIn.min.build [.str "\u00a0-01_٢ "] = .ok (.ofKind (.min (.whole (-12)))) := by
  have read : readInteger "\u00a0-01_٢ ".toList = .ok (-12) := by decide +kernel
  have passed : ((Rule.ofKind .integer).check (.str "\u00a0-01_٢ ")).1 = .ok true :=
    Report.ofInteger_text.mpr ⟨_, read⟩
  have kept : rounded (-12) = .whole (-12) := by decide +kernel
  obtain ⟨every, texts⟩ :=
    @Rule.numeric_of_integer (.ofKind .integer) (.ofKind .numeric) rfl rfl
  obtain ⟨n, again, least, -⟩ := texts _ passed
  cases read.symm.trans again
  exact ⟨passed, every _ passed, least.trans (by rw [kept])⟩

end FieldRules
