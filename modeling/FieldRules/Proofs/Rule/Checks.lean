import FieldRules.Proofs.Calendar.Formats
import FieldRules.Proofs.Json.Digits
import FieldRules.Proofs.Rule.Messages
import FieldRules.Rule.Check
import FieldRules.Rule.Class

/-! # Checks that raise

A rule that a built-in class makes from texts decides about every value, with two exceptions. A
rule for JSON raises for a text in which too many digits are reported, and a rule for dates with a
format that repeats a directive raises for every text. Its message is made in any case.
-/

namespace FieldRules

namespace Report

/-- A report that decides, and whose codes are texts. -/
structure Decides (report : Report) : Prop where
  result : ∃ valid, report.result = .ok valid
  codes : ∃ texts : List String, report.codes = texts.map .str

theorem Decides.decided (valid : Bool) : (Report.decided valid).Decides := ⟨⟨valid, rfl⟩, [], rfl⟩

theorem Decides.violated (code : String) : (Report.violated code).Decides :=
  ⟨⟨false, rfl⟩, [code], rfl⟩

theorem ofPresence_decides (value : Value) : (ofPresence value).Decides := by
  cases value <;> exact .decided _

theorem ofText_decides (test : String → Bool) (value : Value) : (ofText test value).Decides := by
  cases value <;> exact .decided _

theorem ofLength_decides (least most : Int) (value : Value) :
    (ofLength least most value).Decides := by
  cases value with
  | str s =>
      simp only [ofLength]
      split
      · exact .violated _
      · split
        · exact .violated _
        · exact .decided true
  | _ => exact .violated _

theorem ofNumeric_decides (value : Value) : (ofNumeric value).Decides := by
  cases value <;> exact .decided _

theorem ofInteger_decides (value : Value) : (ofInteger value).Decides := by
  cases value with
  | str s =>
      simp only [ofInteger]
      split
      · exact .decided true
      · exact .decided false
  | _ => exact .decided _

theorem ofUuid_decides (version : Option Int) (value : Value) : (ofUuid version value).Decides := by
  simp only [ofUuid]
  split
  · exact .violated _
  · split
    · exact .violated _
    · split
      · exact .decided true
      · split
        · exact .decided true
        · exact .violated _

end Report

namespace RuleKind

/-- The kinds that built-in classes make from texts. -/
def IsTextual : RuleKind → Prop
  | .regex source => ∃ pattern, source = .pattern pattern
  | .date format => ∃ text, format = .str text
  | .wrapped .. | .custom _ => False
  | _ => True

/-- What a check raises. -/
inductive Hazard : RuleKind → Value → Fault → Prop where
  | json {text : String} {count : Nat} (long : Json.read text = .error (.tooManyDigits count)) :
      Hazard .json (.str text) (.tooManyDigits count)
  | date {format : String} {directives : List Calendar.Directive}
      (asks : Calendar.FormatPiece.Asks format.toList directives) (repeated : ¬directives.Nodup)
      (text : String) : Hazard (.date (.str format)) (.str text) .repeatedDirective

variable {kind : RuleKind} {value : Value} {fault : Fault}

theorem Hazard.report (hazard : kind.Hazard value fault) : kind.report value = .faulted fault := by
  cases hazard with
  | json long => simp only [RuleKind.report, Report.ofJson, long]
  | @date format _ asks repeated text =>
      have raised : Calendar.readTime format text = .error .repeatedDirective :=
        Calendar.readTime_repeated.mpr ⟨_, asks, repeated⟩
      simp only [RuleKind.report, Report.ofDate, raised]

theorem Hazard.text (hazard : kind.Hazard value fault) : ∃ text, value = .str text := by
  cases hazard with
  | @json text => exact ⟨text, rfl⟩
  | date _ _ text => exact ⟨text, rfl⟩

theorem IsTextual.report (textual : kind.IsTextual) (value : Value) :
    (kind.report value).Decides ∨ ∃ fault, kind.Hazard value fault := by
  cases kind with
  | sometimes => exact .inl (.decided true)
  | required => exact .inl (Report.ofPresence_decides value)
  | email =>
      left
      cases value with
      | str s =>
          simp only [RuleKind.report]
          split
          · exact .decided true
          · exact .violated _
      | _ => exact .violated _
  | url | alpha | alphaNumeric => exact .inl (Report.ofText_decides _ value)
  | min | max => exact .inl (.decided _)
  | length least most => exact .inl (Report.ofLength_decides least most value)
  | regex source =>
      obtain ⟨pattern, rfl⟩ := textual
      left
      cases value <;> exact .decided _
  | within | outside | boolean => exact .inl (.decided _)
  | numeric => exact .inl (Report.ofNumeric_decides value)
  | integer => exact .inl (Report.ofInteger_decides value)
  | date format =>
      obtain ⟨format, rfl⟩ := textual
      cases value with
      | str text =>
          cases read : Calendar.readTime format text with
          | ok time =>
              left
              cases time with
              | none => simpa only [RuleKind.report, Report.ofDate, read] using .violated _
              | some time => simpa only [RuleKind.report, Report.ofDate, read] using .decided true
          | error reason =>
              cases reason with
              | badDirective =>
                  left
                  simpa only [RuleKind.report, Report.ofDate, read] using .violated _
              | repeatedDirective =>
                  obtain ⟨directives, asks, repeated⟩ := Calendar.readTime_repeated.mp read
                  exact .inr ⟨_, .date asks repeated text⟩
      | date | datetime => exact .inl (.decided true)
      | _ => exact .inl (.violated _)
  | uuid version => exact .inl (Report.ofUuid_decides version value)
  | json =>
      cases value with
      | str text =>
          cases read : Json.read text with
          | ok found =>
              left
              simpa only [RuleKind.report, Report.ofJson, read] using .decided true
          | error reason =>
              cases reason with
              | malformed =>
                  left
                  simpa only [RuleKind.report, Report.ofJson, read] using .decided false
              | tooManyDigits count => exact .inr ⟨_, .json read⟩
      | _ => exact .inl (.decided _)
  | array => exact .inl (by cases value <;> exact .decided _)
  | wrapped | custom => exact textual.elim

theorem IsTextual.error_iff (textual : kind.IsTextual) :
    (kind.report value).result = .error fault ↔ kind.Hazard value fault := by
  constructor
  · -- A report that decides cannot raise as well, and a hazard raises one fault only.
    intro raised
    rcases textual.report value with decides | ⟨other, hazard⟩
    · obtain ⟨valid, decided⟩ := decides.result
      cases decided.symm.trans raised
    · rw [hazard.report] at raised
      obtain rfl := Except.error.inj raised
      exact hazard
  · intro hazard
    rw [hazard.report]
    rfl

theorem IsTextual.codes (textual : kind.IsTextual) (value : Value) :
    ∃ texts : List String, (kind.report value).codes = texts.map .str := by
  rcases textual.report value with decides | ⟨fault, hazard⟩
  · exact decides.codes
  · rw [hazard.report]
    exact ⟨[], rfl⟩

/-- The templates of built-in classes go no further than names. -/
theorem IsTextual.template (textual : kind.IsTextual) :
    (Template.piecesOf kind.standardTemplate.toList).all Template.Piece.isSimple = true := by
  cases kind with
  | wrapped | custom => exact textual.elim
  | _ =>
      simp only [standardTemplate]
      decide +kernel

end RuleKind

namespace Rule

/-- What holds of a rule that a built-in class makes from texts, whatever codes it has recorded. -/
structure IsTextual (rule : Rule) : Prop where
  kind : rule.kind.IsTextual
  template : (Template.piecesOf rule.template.toList).all Template.Piece.isSimple = true
  skip : rule.skip = false
  emptyAllowed : rule.emptyAllowed = .bool false

theorem IsTextual.ofKind {kind : RuleKind} (textual : kind.IsTextual) : (ofKind kind).IsTextual :=
  ⟨textual, textual.template, rfl, rfl⟩

theorem IsTextual.recording {rule : Rule} (textual : rule.IsTextual) (codes : List Value) :
    ({ rule with violations := codes } : Rule).IsTextual :=
  ⟨textual.kind, textual.template, textual.skip, textual.emptyAllowed⟩

theorem IsTextual.message {rule : Rule} (textual : rule.IsTextual) (label : String) :
    ∃ text, rule.message label = .ok text :=
  message_ok.mpr (Template.not_escape_simple textual.template _ _)

end Rule

namespace BuiltIn

theorem buildPlain_textual {c : BuiltIn} {kind : RuleKind} {arguments : List Value} {rule : Rule}
    (built : c.buildPlain kind arguments = .ok rule) (textual : kind.IsTextual) :
    rule.IsTextual := by
  obtain ⟨_, _, made⟩ := Outcome.bind_ok built
  obtain rfl := Except.ok.inj made
  exact .ofKind textual

/-- What a built-in class makes from texts is a rule of the kinds above, with a template of its
class. -/
theorem build_textual {c : BuiltIn} {texts : List String} {rule : Rule}
    (built : c.build (texts.map .str) = .ok rule) : rule.IsTextual := by
  cases c with
  | sometimes | required | email | url | numeric | integer | alpha | alphaNumeric | json | array
  | boolean => exact buildPlain_textual built trivial
  | within | outside =>
      obtain rfl := Except.ok.inj built
      exact .ofKind trivial
  | min | max =>
      obtain ⟨_, _, made⟩ := Outcome.bind_ok built
      obtain ⟨bound, _, made⟩ := Outcome.bind_ok made
      obtain rfl := Except.ok.inj made
      exact .ofKind trivial
  | length =>
      obtain ⟨_, _, made⟩ := Outcome.bind_ok built
      obtain ⟨least, _, made⟩ := Outcome.bind_ok made
      have exact : (Template.piecesOf (RuleKind.lengthTemplate true).toList).all
          Template.Piece.isSimple = true := by decide +kernel
      split at made
      · obtain rfl := Except.ok.inj made
        exact ⟨trivial, exact, rfl, rfl⟩
      · obtain rfl := Except.ok.inj made
        exact ⟨trivial, exact, rfl, rfl⟩
      · obtain ⟨most, _, made⟩ := Outcome.bind_ok made
        obtain rfl := Except.ok.inj made
        exact .ofKind trivial
  | regex =>
      obtain ⟨_, counted, made⟩ := Outcome.bind_ok built
      cases texts with
      | nil => cases counted
      | cons source rest =>
          simp only [List.map_cons, List.headD_cons, Rule.ofPattern] at made
          split at made
          · obtain rfl := Except.ok.inj made
            exact .ofKind ⟨_, rfl⟩
          · cases made
  | date =>
      obtain ⟨_, _, made⟩ := Outcome.bind_ok built
      obtain rfl := Except.ok.inj made
      cases texts with
      | nil => exact .ofKind ⟨_, rfl⟩
      | cons format rest => exact .ofKind ⟨_, rfl⟩
  | uuid =>
      obtain ⟨_, _, made⟩ := Outcome.bind_ok built
      split at made
      · obtain rfl := Except.ok.inj made
        exact .ofKind trivial
      · obtain ⟨version, _, made⟩ := Outcome.bind_ok made
        obtain rfl := Except.ok.inj made
        exact .ofKind trivial

end BuiltIn

end FieldRules
