import FieldRules.Proofs.Rule.Messages
import FieldRules.Proofs.Validation.Meeting

/-! # Answers of functions

A function that stands for a rule answers with a rule, or with a value that says whether it passes.
A dictionary says more: whether empty values pass, whether the check is skipped, and the name and
the codes of a failure. It is understood, unless it gives null for its codes, or a name or a code
that has no text; then the run ends with a fault.
-/

namespace FieldRules

namespace Value

/-! ## What an answer says -/

/-- What an answer says under a key; only dictionaries say something. -/
def entry? (answer : Value) (key : String) : Option Value :=
  match answer with
  | .dict entries => lookup? (.str key) entries
  | _ => Option.none

/-- Whether an answer has something under a key that counts as true. -/
def affirms (answer : Value) (key : String) : Bool := ((answer.entry? key).map isTruthy).getD false

/-- Whether an answer calls its value valid. -/
def isValid : Value → Bool
  | .dict entries => affirms (.dict entries) "valid"
  | answer => answer.isTruthy

/-- Whether a value passes by an answer. -/
def accepts (answer value : Value) : Bool :=
  answer.affirms "skip" || (answer.affirms "empty_allowed" && value.isEmpty) || answer.isValid

/-- The text of a value, where it has one. -/
def wording (value : Value) : String := value.text?.getD ""

/-- The name that an answer gives to its failures. -/
def declaredName (answer : Value) : String :=
  match answer.entry? "name" with
  | some name => if name.isTruthy then name.wording else ""
  | Option.none => ""

/-- The codes that an answer gives to its failures; null gives none. -/
inductive Declares (answer : Value) : List Value → Prop where
  | absent (none : answer.entry? "violations" = Option.none) : Declares answer []
  | null (null : answer.entry? "violations" = some Value.none) : Declares answer []
  | list {codes : List Value} (given : answer.entry? "violations" = some (.list codes)) :
      Declares answer codes
  | tuple {codes : List Value} (given : answer.entry? "violations" = some (.tuple codes)) :
      Declares answer codes

/-- Whether the name that an answer gives, if it gives one, has a text. -/
def Named (answer : Value) : Prop :=
  ∀ name, answer.entry? "name" = some name → name.isTruthy = true → name.text?.isSome = true

/-- An answer that is understood. -/
structure Legible (answer : Value) (codes : List Value) : Prop where
  named : answer.Named
  given : answer.entry? "violations" ≠ some Value.none
  worded : ∀ code ∈ codes, code.text?.isSome = true

/-- Why an answer is not understood: its name is read before its codes. -/
inductive Illegible (answer : Value) (codes : List Value) : Fault → Prop where
  | name (unnamed : ¬answer.Named) : Illegible answer codes .unprintable
  | null (named : answer.Named) (null : answer.entry? "violations" = some Value.none) :
      Illegible answer codes (.notIterable "NoneType")
  | code (named : answer.Named) (given : answer.entry? "violations" ≠ some Value.none)
      {code : Value} (declared : code ∈ codes) (textless : code.text? = Option.none) :
      Illegible answer codes .unprintable

/-- The rule that stands for an answer, by the name and the codes that are read in it. -/
def ruleOf (answer : Value) (name : String) (codes : List String) : Rule :=
  { Rule.ofKind (.wrapped answer.isValid name codes) with
    emptyAllowed := .bool (answer.affirms "empty_allowed")
    skip := answer.affirms "skip" }

/-- The rule that stands for an answer that is understood. -/
def rule (answer : Value) (codes : List Value) : Rule :=
  answer.ruleOf answer.declaredName (codes.map wording)

variable {answer : Value} {codes : List Value} {fault : Fault}

theorem Illegible.not_legible (illegible : answer.Illegible codes fault) :
    ¬answer.Legible codes := by
  intro legible
  cases illegible with
  | name unnamed => exact unnamed legible.named
  | null _ null => exact legible.given null
  | code _ _ declared textless =>
      have worded := legible.worded _ declared
      simp [textless] at worded

/-- An answer that is not understood is so for a reason. -/
theorem not_legible_iff : ¬answer.Legible codes ↔ ∃ fault, answer.Illegible codes fault := by
  refine ⟨fun illegible => ?_, fun ⟨_, illegible⟩ => illegible.not_legible⟩
  by_cases named : answer.Named
  · by_cases null : answer.entry? "violations" = some Value.none
    · exact ⟨_, .null named null⟩
    · by_cases worded : ∀ code ∈ codes, code.text?.isSome = true
      · exact (illegible ⟨named, null, worded⟩).elim
      · simp only [Classical.not_forall] at worded
        obtain ⟨code, declared, textless⟩ := worded
        exact ⟨_, .code named null declared (by simpa using textless)⟩
  · exact ⟨_, .name named⟩

/-! ## Reading an answer -/

theorem plain_of_text {value : Value} (worded : value.text?.isSome = true) :
    value.plain = .ok value.wording := by
  obtain ⟨text, given⟩ := Option.isSome_iff_exists.mp worded
  simp only [plain, wording, given, Option.getD_some]

theorem plain_of_textless {value : Value} (textless : value.text? = Option.none) :
    value.plain = .error .unprintable := by
  simp only [plain, textless]

theorem mapM_plain_worded (worded : ∀ code ∈ codes, code.text?.isSome = true) :
    codes.mapM plain = .ok (codes.map wording) := by
  induction codes with
  | nil => rfl
  | cons code rest ih =>
      have first := plain_of_text (worded code List.mem_cons_self)
      have others := ih fun other member => worded other (List.mem_cons_of_mem _ member)
      rw [List.mapM_cons, first, others]
      rfl

theorem mapM_plain_textless {code : Value} (declared : code ∈ codes)
    (textless : code.text? = Option.none) : codes.mapM plain = .error .unprintable := by
  induction codes with
  | nil => cases declared
  | cons first rest ih =>
      rw [List.mapM_cons]
      cases worded : first.text? with
      | none => rw [plain_of_textless worded]; rfl
      | some text =>
          have later : code ∈ rest := by
            rcases List.mem_cons.mp declared with rfl | later
            · rw [textless] at worded
              cases worded
            · exact later
          rw [plain_of_text (by rw [worded]; rfl), ih later]
          rfl

/-- The name that an answer gives, or the fault of its having no text. -/
def readName (answer : Value) : Outcome String :=
  match answer.entry? "name" with
  | some given => if given.isTruthy then given.plain else pure ""
  | Option.none => pure ""

theorem readName_named (named : answer.Named) : answer.readName = .ok answer.declaredName := by
  simp only [readName, declaredName]
  cases given : answer.entry? "name" with
  | none => rfl
  | some name =>
      simp only
      split
      · exact plain_of_text (named name given ‹_›)
      · rfl

theorem readName_unnamed (unnamed : ¬answer.Named) : answer.readName = .error .unprintable := by
  simp only [Named, Classical.not_forall] at unnamed
  obtain ⟨name, given, truthy, textless⟩ := unnamed
  simp only [readName, given, truthy, if_true]
  exact plain_of_textless (by simpa using textless)

/-- The codes that an answer gives, read as far as they can be. -/
def readCodes (answer : Value) : Outcome (List String) := do
  (← ((answer.entry? "violations").getD (.tuple [])).iterate).mapM plain

theorem Declares.readCodes (declares : answer.Declares codes)
    (given : answer.entry? "violations" ≠ some Value.none) :
    answer.readCodes = codes.mapM plain := by
  cases declares with
  | null null => exact (given null).elim
  | absent said | list said | tuple said =>
      simp only [Value.readCodes, said]
      rfl

/-- A value that is no dictionary declares nothing, and passes just if it counts as true. -/
theorem Declares.plain (declares : answer.Declares codes)
    (plain : ∀ entries, answer ≠ .dict entries) (value : Value) :
    answer.Legible codes ∧ answer.accepts value = answer.isTruthy := by
  have silent (key : String) : answer.entry? key = Option.none := by
    cases answer with
    | dict entries => exact (plain entries rfl).elim
    | _ => rfl
  have unsaid : codes = [] := by
    cases declares with
    | absent | null => rfl
    | list said | tuple said => simp [silent] at said
  subst unsaid
  refine ⟨⟨fun name said => by simp [silent] at said, by simp [silent], nofun⟩, ?_⟩
  have valid : answer.isValid = answer.isTruthy := by
    cases answer with
    | dict entries => exact (plain entries rfl).elim
    | _ => rfl
  simp [accepts, affirms, silent, valid]

theorem readCodes_null (null : answer.entry? "violations" = some Value.none) :
    answer.readCodes = .error (.notIterable "NoneType") := by
  simp only [readCodes, null]
  rfl

end Value

namespace Rule

variable {answer : Value} {codes : List Value} {fault : Fault}

/-- An answer's name is read, and then its codes; values that are no dictionaries give neither. -/
theorem ofAnswer_eq (answer : Value) :
    ofAnswer answer =
      answer.readName.bind fun name => answer.readCodes.map (answer.ruleOf name) := by
  cases answer with
  | dict entries =>
      have codes (name : String) : (do
          let given ← ((Value.lookup? (.str "violations") entries).getD (.tuple [])).iterate
          let codes ← given.mapM Value.plain
          return (Value.dict entries).ruleOf name codes : Outcome Rule) =
          (Value.dict entries).readCodes.map ((Value.dict entries).ruleOf name) := by
        simp only [Value.readCodes, Value.entry?, bind, Except.bind]
        cases ((Value.lookup? (.str "violations") entries).getD (.tuple [])).iterate with
        | error fault => rfl
        | ok given => cases given.mapM Value.plain <;> rfl
      simp only [ofAnswer, Value.readName, Value.entry?]
      cases Value.lookup? (.str "name") entries with
      | none => exact codes ""
      | some name =>
          cases truthy : name.isTruthy with
          | false =>
              simp only [truthy, Bool.false_eq_true, if_false]
              exact codes ""
          | true =>
              simp only [truthy, if_true]
              cases name.plain with
              | error fault => rfl
              | ok text => exact codes text
  | _ => rfl

theorem ofAnswer_legible (declares : answer.Declares codes) (legible : answer.Legible codes) :
    ofAnswer answer = .ok (answer.rule codes) := by
  rw [ofAnswer_eq, Value.readName_named legible.named, declares.readCodes legible.given,
    Value.mapM_plain_worded legible.worded]
  rfl

theorem ofAnswer_illegible (declares : answer.Declares codes)
    (illegible : answer.Illegible codes fault) : ofAnswer answer = .error fault := by
  rw [ofAnswer_eq]
  cases illegible with
  | name unnamed => rw [Value.readName_unnamed unnamed]; rfl
  | null named null => rw [Value.readName_named named, Value.readCodes_null null]; rfl
  | code named given declared textless =>
      rw [Value.readName_named named, declares.readCodes given,
        Value.mapM_plain_textless declared textless]
      rfl

end Rule

/-! ## Checking by an answer -/

/-- A rule whose template has fields that are just names has messages for codes that are texts. -/
theorem Messages.resolve_made {rule : Rule} {texts : List String}
    (simple : (Template.piecesOf rule.template.toList).all Template.Piece.isSimple = true)
    (recorded : rule.violations = texts.map .str) (overrides : Keyed Value) (label : String)
    (key : RuleKey) :
    ∃ messages, messages ≠ [] ∧ resolve overrides label key rule = .ok messages := by
  have made (found : List Value) : ∃ messages, orOwn rule label found = .ok messages := by
    cases found with
    | cons message rest => exact ⟨_, rfl⟩
    | nil =>
        obtain ⟨text, own⟩ := Rule.message_ok.mpr
          (Template.not_escape_simple simple (rule.supply (Text.spaced label)) 2)
        exact ⟨[.str text], by rw [orOwn, own]; rfl⟩
  have resolved : ∃ found, resolve overrides label key rule = orOwn rule label found := by
    cases texts with
    | nil => exact ⟨_, resolve_plain overrides label key recorded⟩
    | cons text rest =>
        have coded : rule.violations ≠ [] := by simp [recorded]
        exact ⟨_, by rw [resolve_codes overrides label key coded, recorded, mapM_plain]; rfl⟩
  obtain ⟨found, resolved⟩ := resolved
  obtain ⟨messages, given⟩ := made found
  exact ⟨messages, orOwn_ne_nil given, resolved.trans given⟩

namespace Value

variable {answer : Value} {codes : List Value}

/-- The rule that stands for an answer, the codes of its check being recorded. -/
def checkedRule (answer : Value) (codes : List Value) : Rule :=
  { answer.rule codes with violations := codes.map fun code => .str code.wording }

theorem passes_rule (answer value : Value) (codes : List Value) :
    (MetRule.ofNew (answer.rule codes)).passes value = .ok (answer.accepts value) := by
  have skip : (MetRule.ofNew (answer.rule codes)).rule.skip = answer.affirms "skip" := rfl
  have empty : (MetRule.ofNew (answer.rule codes)).rule.emptyAllowed.isTruthy =
      answer.affirms "empty_allowed" := rfl
  have check : (MetRule.ofNew (answer.rule codes)).rule.kind.report value =
      if answer.isValid then .decided true
      else { codes := (codes.map wording).map .str, result := .ok false } := rfl
  simp only [MetRule.passes, skip, empty, check, accepts]
  cases answer.affirms "skip" <;> cases answer.affirms "empty_allowed" <;> cases value.isEmpty <;>
    cases answer.isValid <;> rfl

theorem resolve_checkedRule (answer : Value) (codes : List Value) (overrides : Keyed Value)
    (label : String) (key : RuleKey) : ∃ messages, messages ≠ [] ∧
      Messages.resolve overrides label key (answer.checkedRule codes) = .ok messages := by
  have simple : (Template.piecesOf (answer.checkedRule codes).template.toList).all
      Template.Piece.isSimple = true := by
    show (Template.piecesOf RuleKind.plainTemplate.toList).all Template.Piece.isSimple = true
    decide
  have recorded : (answer.checkedRule codes).violations = (codes.map wording).map .str := by
    simp only [checkedRule, List.map_map]
    rfl
  exact Messages.resolve_made simple recorded overrides label key

end Value

namespace TableEntry

variable {c : Callable} {product : Product} {value answer : Value} {codes : List Value}
  {fault : Fault}

/-- What a function gives becomes a rule at once: one that exists is taken, and a new one made. -/
theorem resolve_product (given : c.run [value] = .ok product) (w : Workspace) :
    ∃ seen, (callable c).resolve value w = ruleOfProduct product { w with seen } := by
  obtain ⟨seen, called⟩ := c.call_eq value w
  exact ⟨seen, by simp only [resolve, Task.bind_eq, called, given]⟩

/-- An answer that is understood becomes a new rule. -/
theorem resolve_legible (given : c.run [value] = .ok (.value answer))
    (declares : answer.Declares codes) (legible : answer.Legible codes) (w : Workspace) :
    ∃ id w', (callable c).resolve value w = (.ok id, w') ∧
      w'.rules.item id = answer.rule codes := by
  obtain ⟨seen, resolved⟩ := resolve_product given w
  simp only [resolved, ruleOfProduct, Task.bind_eq, Task.ofOutcome_eq, Task.addRule_eq,
    Rule.ofAnswer_legible declares legible]
  exact ⟨_, _, rfl, by simp only [Shelf.item_add, if_true]⟩

theorem resolve_illegible (given : c.run [value] = .ok (.value answer))
    (declares : answer.Declares codes) (illegible : answer.Illegible codes fault)
    (w : Workspace) : ((callable c).resolve value w).1 = .error fault := by
  obtain ⟨seen, resolved⟩ := resolve_product given w
  simp only [resolved, ruleOfProduct, Task.bind_eq, Task.ofOutcome_eq,
    Rule.ofAnswer_illegible declares illegible]

end TableEntry

namespace Run

variable {answer : Value} {codes : List Value} {w : Workspace} {id : RuleId}

/-- The rule of an answer passes as the answer says, and has its codes recorded otherwise. -/
theorem passes_answer (stands : w.rules.item id = answer.rule codes) (value : Value) :
    (passes id value w).1 = .ok (answer.accepts value) ∧
      (answer.accepts value = false →
        (passes id value w).2 =
          { w with rules := w.rules.set id (answer.checkedRule codes) }) := by
  obtain ⟨_, decided, checked⟩ := passes_met (.refl w) id value
  have met : (MetRule.ofShared w id).passes value = .ok (answer.accepts value) := by
    show (MetRule.ofNew (w.rules.item id)).passes value = _
    rw [stands]
    exact answer.passes_rule value codes
  refine ⟨decided.trans met, fun refused => ?_⟩
  rw [checked (decided.trans (met.trans (congrArg _ refused))), stands]
  have invalid : answer.isValid = false := by
    simp only [Value.accepts, Bool.or_eq_false_iff] at refused
    exact refused.2
  have report : (answer.rule codes).kind.report value =
      { codes := codes.map fun code => .str code.wording, result := .ok false } := by
    show (if answer.isValid then Report.decided true
      else { codes := (codes.map Value.wording).map .str, result := .ok false }) = _
    simp [invalid]
  rw [report]
  rfl

/-- Checking a value by a function's answer that is understood comes to nothing if the value passes
    by it, and to messages otherwise. -/
theorem step_legible {c : Callable} {value : Value}
    (given : c.run [value] = .ok (.value answer)) (declares : answer.Declares codes)
    (legible : answer.Legible codes) (overrides : Keyed Value) (name : String) (recorded : Nat)
    (w : Workspace) :
    (answer.accepts value = true →
      (step overrides name value recorded (.callable c) w).1 = .ok (.found [])) ∧
      (answer.accepts value = false → ∃ messages, messages ≠ [] ∧
        (step overrides name value recorded (.callable c) w).1 = .ok (.found messages)) := by
  obtain ⟨id, w₁, resolved, stands⟩ := TableEntry.resolve_legible given declares legible w
  obtain ⟨decided, checked⟩ := passes_answer stands value
  have applies : ((w₁.rules.item id).kind.isSometimes && value.isEmpty) = false := by
    rw [stands]
    rfl
  rcases ran : passes id value w₁ with ⟨verdict, w₂⟩
  rw [ran] at decided checked
  simp only at decided checked
  subst decided
  simp only [step, Task.bind_eq, resolved, Task.ruleOf_eq, applies, Bool.false_eq_true, if_false,
    ran]
  constructor
  · intro accepted
    rw [accepted]
    rfl
  · intro refused
    rw [checked refused, refused]
    obtain ⟨messages, some, made⟩ := answer.resolve_checkedRule codes overrides name
      (.ofRule (some w₁.registry) (w₁.rules.set id (answer.checkedRule codes)) id recorded)
    refine ⟨messages, some, ?_⟩
    simp only [Bool.false_eq_true, if_false, Run.messages, Task.bind_eq, Task.get_eq,
      Task.ofOutcome_eq, Shelf.item_set, if_true, made, Task.pure_eq]

theorem step_illegible {c : Callable} {value : Value} {fault : Fault}
    (given : c.run [value] = .ok (.value answer)) (declares : answer.Declares codes)
    (illegible : answer.Illegible codes fault) (overrides : Keyed Value) (name : String)
    (recorded : Nat) (w : Workspace) :
    (step overrides name value recorded (.callable c) w).1 = .error fault := by
  have failed := TableEntry.resolve_illegible given declares illegible w
  simp only [step, Task.bind_eq]
  rcases resolved : (TableEntry.callable c).resolve value w with ⟨outcome, w₁⟩
  rw [resolved] at failed
  simp only at failed
  rw [failed]

end Run

/-! ## Runs of one function -/

section

variable {input : RunInput} {name : String} {entry : TableEntry} {w : Workspace}

theorem run_sole_fault {fault : Fault}
    (failed : (Run.step input.overrides name (input.valueOf name) 0 entry w).1 = .error fault) :
    (run input [(name, [entry])] w).1 = ⟨[], .error fault⟩ := by
  rcases ran : Run.step input.overrides name (input.valueOf name) 0 entry w with ⟨outcome, w'⟩
  rw [ran] at failed
  obtain rfl := failed
  simp only [run, Run.checkAttributes, Run.checkAttribute, List.length_nil, ran]
  rfl

theorem run_sole_passed
    (passed : (Run.step input.overrides name (input.valueOf name) 0 entry w).1 =
      .ok (.found [])) : (run input [(name, [entry])] w).1 = ⟨[], .ok true⟩ := by
  rcases ran : Run.step input.overrides name (input.valueOf name) 0 entry w with ⟨outcome, w'⟩
  rw [ran] at passed
  obtain rfl := passed
  simp only [run, Run.checkAttributes, Run.checkAttribute, List.length_nil, ran,
    List.append_nil, List.isEmpty_nil, Bool.not_true, Bool.and_false, Bool.false_eq_true, if_false]
  rfl

theorem run_sole_failed {messages : List Value} (some : messages ≠ [])
    (failed : (Run.step input.overrides name (input.valueOf name) 0 entry w).1 =
      .ok (.found messages)) :
    (run input [(name, [entry])] w).1 = ⟨[(name, messages)], .ok false⟩ := by
  rcases ran : Run.step input.overrides name (input.valueOf name) 0 entry w with ⟨outcome, w'⟩
  rw [ran] at failed
  obtain rfl := failed
  have recorded : Run.record [] name messages = [(name, messages)] := by
    simp only [Run.record, List.isEmpty_eq_false_iff.mpr some, Bool.false_eq_true, if_false]
    rfl
  -- The run ends here in any mode; in stop mode it says so.
  simp only [run, Run.checkAttributes, Run.checkAttribute, List.length_nil, ran, List.nil_append]
  cases input.stops <;>
    simp [recorded, List.isEmpty_eq_false_iff.mpr some]

end

/-- What it means that an answer of a function to a value is understood: it stands for a rule that
    has its name and passes as it says, with its codes recorded when it does not pass; and checking
    the value comes to messages then, whatever overrides there are, and is no fault. -/
structure TableEntry.Understood (c : Callable) (value answer : Value) (codes : List Value)
    (w : Workspace) : Prop where
  stands : ∃ id w', (callable c).resolve value w = (.ok id, w') ∧
    (w'.rules.item id).name = answer.declaredName ∧
    (Run.passes id value w').1 = .ok (answer.accepts value) ∧
    (answer.accepts value = false → ((Run.passes id value w').2.rules.item id).violations =
      codes.map fun code => .str code.wording)
  checked : ∀ overrides name recorded,
    (answer.accepts value = true →
      (Run.step overrides name value recorded (callable c) w).1 = .ok (.found [])) ∧
    (answer.accepts value = false → ∃ messages, messages ≠ [] ∧
      (Run.step overrides name value recorded (callable c) w).1 = .ok (.found messages))
  validated : ∀ input name, RunInput.valueOf input name = value →
    (answer.accepts value = true → (run input [(name, [callable c])] w).1 = ⟨[], .ok true⟩) ∧
    (answer.accepts value = false → ∃ messages, messages ≠ [] ∧
      (run input [(name, [callable c])] w).1 = ⟨[(name, messages)], .ok false⟩)

namespace TableEntry

variable {c : Callable} {value answer : Value} {codes : List Value} {fault : Fault}

theorem understood_of_legible (given : c.run [value] = .ok (.value answer))
    (declares : answer.Declares codes) (legible : answer.Legible codes) (w : Workspace) :
    Understood c value answer codes w where
  stands := by
    obtain ⟨id, w', resolved, stands⟩ := resolve_legible given declares legible w
    obtain ⟨decided, checked⟩ := Run.passes_answer stands value
    refine ⟨id, w', resolved, by rw [stands]; rfl, decided, fun refused => ?_⟩
    rw [checked refused]
    simp only [Shelf.item_set, if_true]
    rfl
  checked overrides name recorded :=
    Run.step_legible given declares legible overrides name recorded w
  validated input name found := by
    subst found
    obtain ⟨passed, failed⟩ :=
      Run.step_legible given declares legible input.overrides name 0 w
    refine ⟨fun accepted => run_sole_passed (passed accepted), fun refused => ?_⟩
    obtain ⟨messages, some, failed⟩ := failed refused
    exact ⟨messages, some, run_sole_failed some failed⟩

/-- A function that stands for a rule. If it gives a rule, that rule is used as it is. If it gives
    anything but a dictionary, the value passes just if that counts as true; an object of another
    kind does. A dictionary whose codes are a list or a tuple, or that declares none, is understood
    as long as its name and its codes have texts. Otherwise it is not: null for the codes is a
    fault, and so is a name or a code without a text; the run ends with it and records nothing. -/
theorem callable_understood (c : Callable) (value : Value) (w : Workspace) :
    (∀ id, c.run [value] = .ok (.shared id) →
      ∃ w', (callable c).resolve value w = (.ok id, w') ∧ w'.rules = w.rules) ∧
    (∀ rule, c.run [value] = .ok (.fresh rule) →
      ∃ id w', (callable c).resolve value w = (.ok id, w') ∧ w'.rules.item id = rule) ∧
    (∀ typeName, c.run [value] = .ok (.foreign typeName) →
      ∃ id w', (callable c).resolve value w = (.ok id, w') ∧
        (Run.passes id value w').1 = .ok true) ∧
    ∀ answer codes, c.run [value] = .ok (.value answer) → answer.Declares codes →
      (Understood c value answer codes w ↔ answer.Legible codes) ∧
      ((∀ entries, answer ≠ .dict entries) →
        answer.Legible codes ∧ answer.accepts value = answer.isTruthy) ∧
      (¬answer.Legible codes ↔ ∃ fault, answer.Illegible codes fault) ∧
      ∀ fault, answer.Illegible codes fault →
        ((callable c).resolve value w).1 = .error fault ∧
        ∀ input name, RunInput.valueOf input name = value →
          (run input [(name, [callable c])] w).1 = ⟨[], .error fault⟩ := by
  refine ⟨fun id given => ?shared, fun rule given => ?fresh, fun typeName given => ?foreign,
    fun answer codes given declares => ⟨⟨fun understood => ?legible, fun legible => ?understood⟩,
      fun plain => ?plain, Value.not_legible_iff, fun fault illegible => ?fault⟩⟩
  case shared =>
    obtain ⟨seen, resolved⟩ := resolve_product given w
    exact ⟨_, resolved, rfl⟩
  case fresh =>
    obtain ⟨seen, resolved⟩ := resolve_product given w
    rw [resolved, ruleOfProduct, Task.addRule_eq]
    exact ⟨_, _, rfl, by simp only [Shelf.item_add, if_true]⟩
  case foreign =>
    obtain ⟨seen, resolved⟩ := resolve_product given w
    rw [resolved, ruleOfProduct, Task.addRule_eq]
    -- The rule is the one for an answer that is plainly true.
    have stands : (w.rules.add (.ofKind (.wrapped true "" []))).2.item w.rules.next =
        (Value.bool true).rule [] := by
      simp only [Shelf.item_add, if_true]
      rfl
    refine ⟨_, _, rfl, ?_⟩
    rw [(Run.passes_answer (w := { w with seen, rules := _ }) stands value).1]
    rfl
  case legible =>
    obtain ⟨id, w', resolved, _⟩ := understood.stands
    refine Classical.byContradiction fun illegible => ?_
    obtain ⟨fault, illegible⟩ := Value.not_legible_iff.mp illegible
    have failed := resolve_illegible given declares illegible w
    rw [resolved] at failed
    cases failed
  case understood => exact understood_of_legible given declares legible w
  case plain => exact declares.plain plain value
  case fault =>
    refine ⟨resolve_illegible given declares illegible w, fun input name found => ?_⟩
    subst found
    exact run_sole_fault (Run.step_illegible given declares illegible input.overrides name 0 w)

namespace Sample

/-- A function that answers every value alike. -/
def answering (answer : Value) : Callable where
  id := 0
  name := "answering"
  run _ := .ok (.value answer)

/-- A failure with a name and a code, where empty values are allowed. -/
def lettered : Value := .dict [(.str "valid", .bool false), (.str "name", .str "lettered"),
  (.str "violations", .list [.str "digits"]), (.str "empty_allowed", .bool true)]

/-- A failure that gives null for its codes. -/
def uncoded : Value := .dict [(.str "valid", .bool false), (.str "violations", .none)]

end Sample

theorem callable_understood_sample :
    Sample.lettered.Legible [.str "digits"] ∧
      (run ⟨[], [], false⟩ [("code", [callable (Sample.answering Sample.lettered)])] {}).1 =
        ⟨[], .ok true⟩ ∧
      ∃ messages, messages ≠ [] ∧
        (run ⟨[("code", .str "17")], [], true⟩
          [("code", [callable (Sample.answering Sample.lettered)])] {}).1 =
          ⟨[("code", messages)], .ok false⟩ := by
  have named : Sample.lettered.entry? "name" = some (.str "lettered") := by
    simp [Sample.lettered, Value.entry?, Value.lookup?, Value.same]
  have coded : Sample.lettered.entry? "violations" = some (.list [.str "digits"]) := by
    simp [Sample.lettered, Value.entry?, Value.lookup?, Value.same]
  have legible : Sample.lettered.Legible [.str "digits"] := by
    refine ⟨fun name given truthy => ?_, by simp [coded], by simp [Value.text?]⟩
    obtain rfl := Option.some.inj (named.symm.trans given)
    rfl
  have understood (value : Value) :=
    ((callable_understood (Sample.answering Sample.lettered) value {}).2.2.2 _ _ rfl
      (.list coded)).1.mpr legible
  exact ⟨legible,
    ((understood .missing).validated ⟨[], [], false⟩ "code" rfl).1 (by decide +kernel),
    ((understood (.str "17")).validated ⟨[("code", .str "17")], [], true⟩ "code" rfl).2
      (by decide +kernel)⟩

/-- Null for the codes of a failure is not taken for no codes: no rule stands for such an answer,
    and the run records nothing. -/
theorem callable_misunderstood :
    Sample.uncoded.Declares [] ∧ Sample.uncoded.accepts (.str "x") = false ∧
      ((callable (Sample.answering Sample.uncoded)).resolve (.str "x") {}).1 =
        .error (.notIterable "NoneType") ∧
      (run ⟨[("a", .str "x")], [], false⟩
        [("a", [callable (Sample.answering Sample.uncoded)])] {}).1 =
        ⟨[], .error (.notIterable "NoneType")⟩ := by
  have null : Sample.uncoded.entry? "violations" = some .none := by
    simp [Sample.uncoded, Value.entry?, Value.lookup?, Value.same]
  have unnamed : Sample.uncoded.entry? "name" = none := by
    simp [Sample.uncoded, Value.entry?, Value.lookup?, Value.same]
  have illegible : Sample.uncoded.Illegible [] (.notIterable "NoneType") :=
    .null (fun name given => by simp [unnamed] at given) null
  have answered : (Sample.answering Sample.uncoded).run [.str "x"] = .ok (.value Sample.uncoded) :=
    rfl
  have failed := Run.step_illegible answered (.null null) illegible [] "a" 0 {}
  exact ⟨.null null, by decide +kernel, resolve_illegible answered (.null null) illegible {},
    run_sole_fault failed⟩

end TableEntry

end FieldRules
