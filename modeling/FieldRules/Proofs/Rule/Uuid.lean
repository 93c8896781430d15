import FieldRules.Proofs.Format.Uuid
import FieldRules.Proofs.Registry.Arguments

/-! # Checks for identifiers of a version

A rule asks for a version, as a number that its class is given or that stands in a rule string. It
accepts the identifiers of this version. But zero, which no identifier has as its version, asks for
nothing: with it every identifier is accepted.
-/

namespace FieldRules

open Format.Uuid (Spells Versioned)

/-- The text of a value spells an identifier. -/
def Value.Identifies (value : Value) (n : Nat) : Prop :=
  ∃ text, value.text? = some text ∧ Spells text.toList n

/-- What a rule that asks for a version has to say to a value, and the codes that it is to
    record. -/
structure Rule.Heeds (rule : Rule) (version : Int) (value : Value) : Prop where
  accepted : (rule.check value).1 = .ok true ↔ ∃ n, value.Identifies n ∧ Versioned n version
  otherVersion : ∀ n, value.Identifies n → ¬Versioned n version →
    rule.check value = (.ok false, { rule with violations := [.str "version"] })
  noIdentifier : (∀ n, ¬value.Identifies n) →
    rule.check value = (.ok false, { rule with violations := [.str "format"] })

variable {rule : Rule} {version : Int} {value : Value} {n : Nat}

theorem Value.identifies_iff :
    value.Identifies n ↔ value.text?.bind Format.Uuid.read? = some n := by
  simp only [Identifies, Option.bind_eq_some_iff, Format.Uuid.read?_iff]

/-- The texts of empty values spell nothing. -/
theorem Value.Identifies.filled (identifies : value.Identifies n) : value.isEmpty = false := by
  have read := Value.identifies_iff.mp identifies
  cases value with
  | none | missing => nomatch read
  | str s =>
      refine beq_eq_false_iff_ne.mpr ?_
      rintro rfl
      nomatch read
  | _ => rfl

theorem Rule.check_uuid (asks : rule.kind = .uuid (some version)) (value : Value) :
    rule.check value = ((Report.ofUuid (some version) value).result,
      { rule with violations := (Report.ofUuid (some version) value).codes }) := by
  rw [check, asks]
  rfl

theorem Rule.check_identified (asks : rule.kind = .uuid (some version))
    (identifies : value.Identifies n) :
    rule.check value =
      if version = 0 ∨ Versioned n version then (.ok true, { rule with violations := [] })
      else (.ok false, { rule with violations := [.str "version"] }) := by
  have read := Value.identifies_iff.mp identifies
  have found : Report.ofUuid (some version) value =
      if version = 0 ∨ Versioned n version then .decided true else .violated "version" := by
    simp only [Report.ofUuid, identifies.filled, read, Bool.or_eq_true, decide_eq_true_eq,
      Format.Uuid.version?_iff]
    rfl
  rw [check_uuid asks, found]
  split <;> rfl

theorem Rule.check_unidentified (asks : rule.kind = .uuid (some version))
    (unknown : ∀ n, ¬value.Identifies n) :
    rule.check value = (.ok false, { rule with violations := [.str "format"] }) := by
  have unread : value.text?.bind Format.Uuid.read? = none :=
    Option.eq_none_iff_forall_ne_some.mpr fun n => mt Value.identifies_iff.mpr (unknown n)
  have found : Report.ofUuid (some version) value = .violated "format" := by
    rw [Report.ofUuid]
    split
    · rfl
    · rw [unread]
  rw [check_uuid asks, found]
  rfl

/-- A rule heeds what it is asked for, unless it is asked for the version zero of an identifier. -/
theorem Rule.heeds_iff (asks : rule.kind = .uuid (some version)) (value : Value) :
    rule.Heeds version value ↔ (version = 0 → ∀ n, value.Identifies n → Versioned n 0) := by
  constructor
  · rintro heeds rfl n identifies
    by_contra other
    have refused := heeds.otherVersion n identifies other
    rw [check_identified asks identifies, if_pos (.inl rfl)] at refused
    nomatch congrArg Prod.fst refused
  · intro zero
    have verdict (n : Nat) (identifies : value.Identifies n) :
        version = 0 ∨ Versioned n version ↔ Versioned n version := by
      refine ⟨fun heeded => heeded.elim (fun none => ?_) id, .inr⟩
      rw [none]
      exact zero none n identifies
    constructor
    · constructor
      · intro accepted
        by_contra none
        by_cases known : ∃ n, value.Identifies n
        · obtain ⟨n, identifies⟩ := known
          rw [check_identified asks identifies, if_neg] at accepted
          · nomatch accepted
          · exact fun heeded => none ⟨n, identifies, (verdict n identifies).mp heeded⟩
        · rw [check_unidentified asks (not_exists.mp known)] at accepted
          nomatch accepted
      · rintro ⟨n, identifies, versioned⟩
        rw [check_identified asks identifies, if_pos (.inr versioned)]
    · intro n identifies other
      rw [check_identified asks identifies, if_neg (mt (verdict n identifies).mp other)]
    · exact check_unidentified asks

theorem BuiltIn.build_version (version : Int) :
    BuiltIn.uuid.build [.int version] = .ok (.ofKind (.uuid (some version))) := rfl

/-- What the class makes of the text of a number: the rule of the number, unless it is too long. -/
theorem BuiltIn.build_version_text (version : Int) :
    BuiltIn.uuid.build [.str (toString version)] =
      if version.natAbs < textBound then .ok (.ofKind (.uuid (some version)))
      else .error (.tooManyDigits (Nat.toDigits 10 version.natAbs).length) := by
  have read : (Value.str (toString version)).toInteger = _ :=
    congrArg (integerRead (.str (toString version))) (Number.readInteger_toString version)
  have built : BuiltIn.uuid.build [.str (toString version)] =
      (Value.str (toString version)).toInteger.bind fun version =>
        .ok (.ofKind (.uuid (some version))) := rfl
  rw [built, read]
  split <;> rfl

/-- The class makes the rule of every whole number, and so does the rule string, unless the number
    has too many digits for text. The rule accepts the identifiers of its version and says why it
    does not accept another value, just if it is not the rule of the version zero; that one accepts
    all identifiers. -/
theorem Registry.parse_version {w : Workspace}
    (listed : w.registry.entries.get? "uuid" = some (.ofClass (.builtIn .uuid))) (version : Int)
    (current : ∀ kept, w.registry.cache.get? (BuiltIn.uuid.textOf version) = some kept →
      w.registry.tokenize (BuiltIn.uuid.textOf version) = .ok kept) :
    BuiltIn.uuid.build [.int version] = .ok (.ofKind (.uuid (some version))) ∧
      (version.natAbs < textBound →
        ∃ id w', Registry.parse (BuiltIn.uuid.textOf version) w = (.ok [id], w') ∧
          w'.rules.item id = .ofKind (.uuid (some version))) ∧
      (textBound ≤ version.natAbs → (Registry.parse (BuiltIn.uuid.textOf version) w).1 =
        .error (.buildFailed "uuid" [.str (toString version)]
          (.tooManyDigits (Nat.toDigits 10 version.natAbs).length))) ∧
      ∀ rule : Rule, rule.kind = .uuid (some version) → ∀ value,
        (rule.Heeds version value ↔ (version = 0 → ∀ n, value.Identifies n → Versioned n 0)) ∧
          (version = 0 → ((rule.check value).1 = .ok true ↔ ∃ n, value.Identifies n)) := by
  obtain ⟨made, unmade⟩ := BuiltIn.uuid.parse_textOf listed version current
  rw [BuiltIn.build_version_text] at made unmade
  refine ⟨BuiltIn.build_version version, fun short => ?_, fun long => ?_, ?_⟩
  · exact made _ (if_pos short)
  · rw [unmade _ (if_neg (Nat.not_lt.mpr long))]
    exact congrArg Except.error (Factory.buildFault_texts _ [toString version])
  · intro rule asks value
    refine ⟨Rule.heeds_iff asks value, fun zero => ⟨fun accepted => ?_, ?_⟩⟩
    · by_contra none
      rw [Rule.check_unidentified asks (not_exists.mp none)] at accepted
      nomatch accepted
    · rintro ⟨n, identifies⟩
      rw [Rule.check_identified asks identifies, if_pos (.inl zero)]

theorem Registry.parse_version_sample :
    ∃ id w', Registry.parse "uuid:4" { registry := .standard } = (.ok [id], w') ∧
      ∀ value, (w'.rules.item id).Heeds 4 value := by
  have spelled : BuiltIn.uuid.textOf 4 = "uuid:4" := by decide
  have short : (4 : Int).natAbs < textBound := by decide +kernel
  obtain ⟨-, made, -, heeds⟩ :=
    Registry.parse_version (w := { registry := .standard }) rfl 4 fun _ kept => nomatch kept
  obtain ⟨id, w', parsed, rule⟩ := made short
  rw [spelled] at parsed
  exact ⟨id, w', parsed, fun value => ((heeds _ (by rw [rule]; rfl) value).1).mpr fun zero =>
    absurd zero (by decide)⟩

/-- An identifier of the version four is accepted where the version zero is asked for. -/
theorem Registry.parse_version_zero :
    ∃ id w', Registry.parse "uuid:0" { registry := .standard } = (.ok [id], w') ∧
      BuiltIn.uuid.build [.int 0] = .ok (w'.rules.item id) ∧
      ((w'.rules.item id).check (.str "12345678-1234-4234-8234-123456789012")).1 = .ok true ∧
      Value.Identifies (.str "12345678-1234-4234-8234-123456789012")
        0x12345678123442348234123456789012 ∧
      Versioned 0x12345678123442348234123456789012 4 ∧
      ¬(w'.rules.item id).Heeds 0 (.str "12345678-1234-4234-8234-123456789012") := by
  have spelled : BuiltIn.uuid.textOf 0 = "uuid:0" := by decide
  have short : (0 : Int).natAbs < textBound := by decide +kernel
  obtain ⟨made, -⟩ :=
    BuiltIn.uuid.parse_textOf (w := { registry := .standard }) rfl 0 fun _ kept => nomatch kept
  obtain ⟨id, w', parsed, rule⟩ := made _ ((BuiltIn.build_version_text 0).trans (if_pos short))
  rw [spelled] at parsed
  have identifies : Value.Identifies (.str "12345678-1234-4234-8234-123456789012")
      0x12345678123442348234123456789012 := Value.identifies_iff.mpr (by decide +kernel)
  have asks : (Rule.ofKind (.uuid (some 0))).kind = .uuid (some 0) := rfl
  refine ⟨id, w', parsed, ?_, ?_, identifies, by decide +kernel, ?_⟩
  · rw [rule]
    rfl
  · rw [rule, Rule.check_identified asks identifies, if_pos (.inl rfl)]
  · rw [rule, Rule.heeds_iff asks]
    exact fun heeds => absurd (heeds rfl _ identifies) (by decide +kernel)

end FieldRules
