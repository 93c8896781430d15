import FieldRules.Proofs.Workspace
import FieldRules.Validation.Run

/-! # The rules that a value meets

An entry of a table stands for one rule at each value: the rule it is bound to, or the one that its
function gives. `TableEntry.met` says which, without a workspace that changes: the codes of earlier
checks are left out, since a check replaces them. A step of a run comes to what the meeting of the
value with that rule comes to, wherever in a run the step is taken.
-/

namespace FieldRules

/-- A rule as a value meets it, and the identifier that it is registered under, if it is. -/
structure MetRule where
  rule : Rule
  identifier : Option String

namespace MetRule

/-- A rule that exists. -/
def ofShared (w : Workspace) (id : RuleId) : MetRule :=
  ⟨(w.rules.item id).cleared, w.registry.identifierOf (.rule id)⟩

/-- A rule made for the occasion: nothing can have registered it. -/
def ofNew (rule : Rule) : MetRule := ⟨rule.cleared, none⟩

/-- What addresses the rule in overrides, `recorded` messages being there before it. -/
def key (met : MetRule) (recorded : Nat) : RuleKey :=
  match met.identifier with
  | some identifier => .name identifier
  | none => if met.rule.name = "" then .position recorded else .name met.rule.name

/-- Whether the rules behind this one do not apply. -/
def bypasses (met : MetRule) (value : Value) : Bool := met.rule.kind.isSometimes && value.isEmpty

/-- Whether a value passes: it is skipped, it is empty where empty values are allowed, or the check
    accepts it. -/
def passes (met : MetRule) (value : Value) : Outcome Bool :=
  if met.rule.skip then .ok true
  else if met.rule.emptyAllowed.isTruthy && value.isEmpty then .ok true
  else (met.rule.kind.report value).result

/-- The messages for a value that fails, for the codes that this very check gives. -/
def messages (met : MetRule) (overrides : Keyed Value) (name : String) (value : Value)
    (recorded : Nat) : Outcome (List Value) :=
  Messages.resolve overrides name (met.key recorded)
    { met.rule with violations := (met.rule.kind.report value).codes }

end MetRule

/-- The rule that a function's product stands for. -/
def Product.met (w : Workspace) : Product → Outcome MetRule
  | .shared id => .ok (.ofShared w id)
  | .fresh rule => .ok (.ofNew rule)
  | .value answer => (Rule.ofAnswer answer).map .ofNew
  | .foreign _ => .ok (.ofNew (.ofKind (.wrapped true "" [])))

/-- The rule that an entry stands for at a value. -/
def TableEntry.met (w : Workspace) (value : Value) : TableEntry → Outcome MetRule
  | .bound id => .ok (.ofShared w id)
  | .callable c => (c.run [value]).bind (Product.met w)

/-- A value of an attribute with the rule that it meets, or the fault of finding that rule. -/
structure Meeting where
  name : String
  value : Value
  rule : Outcome MetRule

namespace Meeting

/-- Whether the rules behind do not apply. -/
def bypasses (m : Meeting) : Bool :=
  match m.rule with
  | .ok met => met.bypasses m.value
  | .error _ => false

/-- Whether the value passes. -/
def passes (m : Meeting) : Outcome Bool := m.rule.bind fun met => met.passes m.value

/-- Whether the value fails. -/
def fails (m : Meeting) : Bool :=
  match m.passes with
  | .ok passed => !passed
  | .error _ => false

/-- The messages for a value that fails. -/
def messages (m : Meeting) (overrides : Keyed Value) (recorded : Nat) : Outcome (List Value) :=
  m.rule.bind fun met => met.messages overrides m.name m.value recorded

/-- What a step comes to. -/
def step (m : Meeting) (overrides : Keyed Value) (recorded : Nat) : Outcome Run.Step :=
  if m.bypasses then .ok .bypass
  else match m.passes with
    | .error fault => .error fault
    | .ok true => .ok (.found [])
    | .ok false => (m.messages overrides recorded).map .found

end Meeting

/-! ## Steps of a run -/

namespace MetRule

theorem ofShared_kept {w w' : Workspace} (kept : w.KeptIn w') {id : RuleId}
    (below : id < w.rules.next) : ofShared w' id = ofShared w id := by
  simp only [ofShared, kept.cleared id below, kept.identifierOf]

/-- A rule that is given an identity is met as the rule made for the occasion that it is. -/
theorem ofShared_added {w : Workspace} (registered : w.registry.InUse w.rules) (rule : Rule) :
    ofShared { w with rules := (w.rules.add rule).2 } w.rules.next = ofNew rule := by
  simp only [ofShared, ofNew, Shelf.item_add, if_true,
    registered.unregistered (Nat.le_refl _)]

theorem key_ofShared (w : Workspace) (id : RuleId) (recorded : Nat) :
    RuleKey.ofRule (some w.registry) w.rules id recorded = (ofShared w id).key recorded := by
  simp only [RuleKey.ofRule, Option.bind_some, key, ofShared]
  rfl

end MetRule

variable {w w' : Workspace}

theorem Product.met_kept (kept : w.KeptIn w') {product : Product} (used : product.InUse w.rules) :
    product.met w' = product.met w := by
  cases product with
  | shared id => exact congrArg Except.ok (MetRule.ofShared_kept kept used)
  | fresh | value | foreign => rfl

/-- What an entry stands for does not change as long as a workspace is kept. -/
theorem TableEntry.met_kept (kept : w.KeptIn w') {entry : TableEntry}
    (used : entry.InUse w.rules) (value : Value) : entry.met w' value = entry.met w value := by
  cases entry with
  | bound id => exact congrArg Except.ok (MetRule.ofShared_kept kept used)
  | callable c =>
      simp only [TableEntry.met]
      cases given : c.run [value] with
      | error fault => rfl
      | ok product => exact Product.met_kept kept (used [value] product given)

/-- A function's product becomes a rule that is met as `Product.met` says. -/
theorem Product.ruleOf_met (kept : w.KeptIn w') (registered : w.registry.InUse w.rules)
    {product : Product} (used : product.InUse w.rules) :
    w.KeptIn (TableEntry.ruleOfProduct product w').2 ∧
      (TableEntry.ruleOfProduct product w').1.map
        (MetRule.ofShared (TableEntry.ruleOfProduct product w').2) = product.met w := by
  have added := MetRule.ofShared_added (kept.registryInUse registered)
  cases product with
  | shared id => exact ⟨kept, congrArg Except.ok (MetRule.ofShared_kept kept used)⟩
  | fresh rule => exact ⟨kept.adding rule, congrArg Except.ok (added rule)⟩
  | foreign typeName => exact ⟨kept.adding _, congrArg Except.ok (added _)⟩
  | value answer =>
      simp only [TableEntry.ruleOfProduct, Task.bind_eq, Task.ofOutcome_eq, Product.met]
      cases Rule.ofAnswer answer with
      | error fault => exact ⟨kept, rfl⟩
      | ok rule => exact ⟨kept.adding rule, congrArg Except.ok (added rule)⟩

/-- An entry gives a rule that is met as `TableEntry.met` says. -/
theorem TableEntry.resolve_met (kept : w.KeptIn w') (registered : w.registry.InUse w.rules)
    {entry : TableEntry} (used : entry.InUse w.rules) (value : Value) :
    w.KeptIn (entry.resolve value w').2 ∧
      (entry.resolve value w').1.map (MetRule.ofShared (entry.resolve value w').2) =
        entry.met w value := by
  cases entry with
  | bound id => exact ⟨kept, congrArg Except.ok (MetRule.ofShared_kept kept used)⟩
  | callable c =>
      obtain ⟨seen, called⟩ := c.call_eq value w'
      have noted := kept.noting seen w'.events
      simp only [TableEntry.resolve, TableEntry.met, Task.bind_eq, called]
      cases given : c.run [value] with
      | error fault => exact ⟨noted, rfl⟩
      | ok product => exact Product.ruleOf_met noted registered (used [value] product given)

namespace Run

/-- Checking a rule decides as the rule that is met does, and leaves a workspace whose rule has the
    codes of this check whenever there was one. -/
theorem passes_met (kept : w.KeptIn w') (id : RuleId) (value : Value) :
    w.KeptIn (passes id value w').2 ∧
      (passes id value w').1 = (MetRule.ofShared w' id).passes value ∧
      ((passes id value w').1 = .ok false →
        (passes id value w').2 = { w' with rules := w'.rules.set id { w'.rules.item id with
          violations := ((w'.rules.item id).kind.report value).codes } }) := by
  by_cases waived : (w'.rules.item id).waives value = true
  · have run : passes id value w' = (.ok true, w') := by
      simp only [passes, Task.bind_eq, Task.ruleOf_eq, waived, if_true, Task.pure_eq]
    have passed : (MetRule.ofShared w' id).passes value = .ok true := by
      rcases (Bool.or_eq_true _ _).mp waived with skip | allowed
      · simp [MetRule.passes, MetRule.ofShared, Rule.cleared, skip]
      · simp only [MetRule.passes, MetRule.ofShared, Rule.cleared, allowed, if_true, ite_self]
    rw [run]
    exact ⟨kept, passed.symm, fun failed => by simp at failed⟩
  · have run : passes id value w' = (((w'.rules.item id).kind.report value).result,
        { w' with rules := w'.rules.set id { w'.rules.item id with
          violations := ((w'.rules.item id).kind.report value).codes } }) := by
      simp only [passes, Task.bind_eq, Task.ruleOf_eq, waived, if_false, Rule.check,
        Task.setRule_eq, Task.ofOutcome_eq, Bool.false_eq_true]
    have unwaived := waived
    simp only [Rule.waives, Bool.or_eq_true, not_or, Bool.not_eq_true] at unwaived
    have passed : (MetRule.ofShared w' id).passes value =
        ((w'.rules.item id).kind.report value).result := by
      simp [MetRule.passes, MetRule.ofShared, Rule.cleared, unwaived.1, unwaived.2]
    rw [run]
    exact ⟨kept.checking rfl, passed.symm, fun _ => rfl⟩

/-- The messages are those for the codes that a rule has recorded. -/
theorem messages_met (overrides : Keyed Value) (name : String) (value : Value) (id : RuleId)
    (recorded : Nat) (w : Workspace) :
    let checked := { w with rules := w.rules.set id { w.rules.item id with
      violations := ((w.rules.item id).kind.report value).codes } }
    messages overrides name id recorded checked =
      ((MetRule.ofShared w id).messages overrides name value recorded, checked) := by
  intro checked
  have key : RuleKey.ofRule (some checked.registry) checked.rules id recorded =
      (MetRule.ofShared w id).key recorded := by
    rw [MetRule.key_ofShared]
    simp only [checked, MetRule.ofShared, Shelf.item_set, if_true]
    rfl
  simp only [messages, Task.bind_eq, Task.get_eq, Task.ofOutcome_eq, key, MetRule.messages]
  simp only [checked, Shelf.item_set, if_true, MetRule.ofShared, Rule.cleared]

/-- A step comes to what the meeting of the value with the entry's rule comes to, and keeps what
    there was before. -/
theorem step_met (kept : w.KeptIn w') (registered : w.registry.InUse w.rules)
    {entry : TableEntry} (used : entry.InUse w.rules) (overrides : Keyed Value) (name : String)
    (value : Value) (recorded : Nat) :
    w.KeptIn (step overrides name value recorded entry w').2 ∧
      (step overrides name value recorded entry w').1 =
        (Meeting.mk name value (entry.met w value)).step overrides recorded := by
  obtain ⟨resolvedKept, resolvedMet⟩ := TableEntry.resolve_met kept registered used value
  simp only [step, Task.bind_eq]
  rcases resolved : entry.resolve value w' with ⟨outcome, w₁⟩
  rw [resolved] at resolvedKept resolvedMet
  rw [← resolvedMet]
  cases outcome with
  | error fault => exact ⟨resolvedKept, rfl⟩
  | ok id =>
      obtain ⟨checkedKept, decided, codes⟩ := passes_met resolvedKept id value
      simp only [Task.ruleOf_eq, Except.map, Meeting.step, Meeting.bypasses, Meeting.passes,
        Meeting.messages, Except.bind]
      by_cases bypassed : (MetRule.ofShared w₁ id).bypasses value = true
      · have noRest : ((w₁.rules.item id).kind.isSometimes && value.isEmpty) = true := bypassed
        simp only [noRest, bypassed, if_true, Task.bind_eq, Task.log_eq, Task.pure_eq, and_true]
        exact resolvedKept.noting _ _
      · have noRest : ¬((w₁.rules.item id).kind.isSometimes && value.isEmpty) = true := bypassed
        simp only [noRest, bypassed, if_false, Task.bind_eq, Bool.false_eq_true]
        rcases checked : passes id value w₁ with ⟨verdict, w₂⟩
        rw [checked] at checkedKept decided codes
        rw [← decided]
        cases verdict with
        | error fault => exact ⟨checkedKept, rfl⟩
        | ok passed =>
            cases passed with
            | true => exact ⟨checkedKept, rfl⟩
            | false =>
                -- The messages are those for the codes of this check, not of an earlier one.
                have codesRecorded := codes rfl
                simp only at codesRecorded
                subst codesRecorded
                simp only [Bool.false_eq_true, if_false, Task.bind_eq,
                  messages_met overrides name value id recorded w₁]
                cases (MetRule.ofShared w₁ id).messages overrides name value recorded with
                | error fault => exact ⟨checkedKept, rfl⟩
                | ok found => exact ⟨checkedKept, rfl⟩

end Run

end FieldRules
