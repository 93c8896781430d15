import FieldRules.Registry.RuleString

/-! # Rule tables

The rules of attributes may be written as a rule string, a rule, a function of the value, or a
sequence of rules and functions.  A rule table gives each attribute its rules and functions in
order.
-/

namespace FieldRules

/-- What is checked of an attribute: a rule, or a function that gives one for each value. -/
inductive TableEntry where
  | bound (id : RuleId)
  | callable (c : Callable)

/-- The rules of attributes. -/
abbrev RuleTable := Keyed (List TableEntry)

/-- What is written as the rules of attributes. -/
inductive RuleSheet where
  | rules (entries : Keyed Written)
  | value (value : Value)

namespace RuleSheet

/-- The rules of a sheet by attribute, if it has any; the keys of a dictionary are attributes. -/
def entries : RuleSheet → Outcome (Keyed Written)
  | .rules entries => .ok entries
  | .value (.dict entries) =>
    .ok ((Value.textEntries entries).map fun (name, v) => (name, .value v))
  | .value v => .error (.invalidRule (.notAMapping v.typeName))

end RuleSheet

namespace TableEntry

/-- The name of an entry; functions have none. -/
def name (rules : RuleStore) : TableEntry → String
  | .bound id => (rules.item id).name
  | .callable _ => ""

/-- What is written as an entry. -/
def ofWritten (rules : RuleStore) : Written → Outcome TableEntry
  | .rule id => .ok (.bound id)
  | .callable c => .ok (.callable c)
  | written => .error (.invalidRule (.notCallable (written.typeName rules)))

/-- What is written as a sequence of entries. -/
def ofSequence (rules : RuleStore) : List Written → Outcome (List TableEntry)
  | [] => .ok []
  | written :: rest => do
    let entry ← ofWritten rules written
    return entry :: (← ofSequence rules rest)

/-- The rule that a function gave for a value. -/
def ruleOfProduct : Product → Task RuleId
  | .shared id => return id
  | .fresh rule => Task.addRule rule
  | .value v => do Task.addRule (← Task.ofOutcome (Rule.ofAnswer v))
  | .foreign _ => Task.addRule (Rule.ofKind (.wrapped true "" []))

/-- The rule of an entry for a value. -/
def resolve (entry : TableEntry) (value : Value) : Task RuleId :=
  match entry with
  | .bound id => pure id
  | .callable c => do ruleOfProduct (← c.call [value])

end TableEntry

namespace RuleTable

/-- The entries of one attribute. -/
def attributeEntries (written : Written) : Task (List TableEntry) := do
  let rules := (← get).rules
  match written with
  | .value (.str spec) => return (← Registry.parse spec).map .bound
  | .list items | .tuple items => Task.ofOutcome (TableEntry.ofSequence rules items)
  | .value (.list items) | .value (.tuple items) =>
    Task.ofOutcome (TableEntry.ofSequence rules (items.map .value))
  | written => do return [← Task.ofOutcome (TableEntry.ofWritten rules written)]

/-- The entries of attributes in order. -/
def ofEntries : Keyed Written → Task RuleTable
  | [] => return []
  | (name, written) :: rest => do
    let entries ← attributeEntries written
    return (name, entries) :: (← ofEntries rest)

/-- The rule table of a sheet. -/
def ofSheet (sheet : RuleSheet) : Task RuleTable := do
  ofEntries (← Task.ofOutcome sheet.entries)

end RuleTable

end FieldRules
