import FieldRules.Rule.Check
import FieldRules.Validation.Messages
import FieldRules.Validation.Result
import FieldRules.Validation.Table

/-! # Validation

A run goes through the attributes of a rule table and through the rules of each, and records a
message for every rule that fails.  A rule that makes the others optional ends an attribute
without a value; in stop mode the first failure ends the run.  A fault ends the run too, with the
errors recorded so far.
-/

namespace FieldRules

/-- What a run is given beside the rules. -/
structure RunInput where
  data : Keyed Value
  overrides : Keyed Value
  /-- Whether the first failure ends the run. -/
  stops : Bool

/-- How checks of an attribute, or of all, come to their end. -/
inductive Ending where
  | finished
  | stopped
  | faulted (fault : Fault)

namespace RunInput

/-- The value of an attribute. -/
def valueOf (input : RunInput) (name : String) : Value := (input.data.get? name).getD .missing

end RunInput

namespace Run

/-- Whether a rule lets a value pass. -/
def passes (id : RuleId) (value : Value) : Task Bool := do
  let rule ← Task.ruleOf id
  if rule.waives value then return true
  let (valid, checked) := rule.check value
  Task.setRule id checked
  Task.ofOutcome valid

/-- The messages for a failed rule. -/
def messages (overrides : Keyed Value) (name : String) (id : RuleId) (recorded : Nat) :
    Task (List Value) := do
  let w ← get
  let key := RuleKey.ofRule (some w.registry) w.rules id recorded
  Task.ofOutcome (Messages.resolve overrides name key (w.rules.item id))

/-- What the check of one entry comes to. -/
inductive Step where
  /-- The rules of the attribute do not apply. -/
  | bypass
  /-- The messages of a failure; there are none if the value passes. -/
  | found (messages : List Value)

/-- Checks a value by one entry, `recorded` messages being recorded before. -/
def step (overrides : Keyed Value) (name : String) (value : Value) (recorded : Nat)
    (entry : TableEntry) : Task Step := do
  let id ← entry.resolve value
  if (← Task.ruleOf id).kind.isSometimes && value.isEmpty then
    Task.log (.bypassed name)
    return .bypass
  if ← passes id value then return .found []
  return .found (← messages overrides name id recorded)

/-- Checks an attribute by its entries, given the messages recorded before. -/
def checkAttribute (input : RunInput) (name : String) (value : Value) (recorded : List Value)
    (w : Workspace) : List TableEntry → (List Value × Ending) × Workspace
  | [] => ((recorded, .finished), w)
  | entry :: rest =>
    match step input.overrides name value recorded.length entry w with
    | (.error fault, w) => ((recorded, .faulted fault), w)
    | (.ok .bypass, w) => ((recorded, .finished), w)
    | (.ok (.found messages), w) =>
      let recorded := recorded ++ messages
      if input.stops && !recorded.isEmpty then
        ((recorded, .stopped), { w with events := w.events ++ [.stopped name] })
      else checkAttribute input name value recorded w rest

/-- Records the messages of an attribute, if there are any. -/
def record (errors : Errors) (name : String) (messages : List Value) : Errors :=
  if messages.isEmpty then errors else errors.put name messages

/-- Checks the attributes of a table, given the errors recorded before. -/
def checkAttributes (input : RunInput) (errors : Errors) (w : Workspace) :
    RuleTable → (Errors × Ending) × Workspace
  | [] => ((errors, .finished), w)
  | (name, entries) :: rest =>
    match checkAttribute input name (input.valueOf name) [] w entries with
    | ((messages, .finished), w) => checkAttributes input (record errors name messages) w rest
    | ((messages, ending), w) => ((record errors name messages, ending), w)

end Run

/-- What a run comes to: the errors that it recorded, and whether everything passed. -/
structure RunResult where
  errors : Errors
  verdict : Outcome Bool

/-- Checks data by a rule table. -/
def run (input : RunInput) (table : RuleTable) (w : Workspace) : RunResult × Workspace :=
  match Run.checkAttributes input [] w table with
  | ((errors, .finished), w) =>
    (⟨errors, .ok errors.isEmpty⟩,
      { w with events := w.events ++ [.finished table.length errors.length] })
  | ((errors, .stopped), w) => (⟨errors, .ok false⟩, w)
  | ((errors, .faulted fault), w) => (⟨errors, .error fault⟩, w)

/-- The values that passed: those of the attributes of a table that are there and have no
errors. -/
def passedData (data : Keyed Value) (table : RuleTable) (errors : Errors) : Keyed Value :=
  table.filterMap fun (name, _) =>
    if errors.has name then none else (data.get? name).map fun value => (name, value)

end FieldRules
