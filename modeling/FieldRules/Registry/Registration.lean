import FieldRules.Registry.Basic

/-! # Registering rules

Everything is checked before it is registered, so what a registry holds can always be asked to
make rules.  A rule that is registered without an identifier is registered under its name, for
which a class or a function is asked to make a rule without arguments.
-/

namespace FieldRules

namespace Registry

/-- The built-in classes under their identifiers. -/
def standardEntries : Keyed Factory :=
  BuiltIn.all.map fun c => (c.identifier, .ofClass (.builtIn c))

/-- A registry of the built-in classes. -/
def standard : Registry := { entries := standardEntries }

/-- A registry of the same entries that has not read any rule strings. -/
def copy (registry : Registry) : Registry := { entries := registry.entries }

/-- The maker of rules under an identifier. -/
def resolve (registry : Registry) (identifier : String) : Outcome Factory :=
  match registry.entries.get? identifier with
  | some factory => .ok factory
  | none => .error (.unknownRule identifier)

/-- The first identifier under which the very thing is registered. -/
def identifierOf (registry : Registry) (written : Written) : Option String :=
  (registry.entries.find? fun entry => entry.2.isThe written).map (·.1)

/-- The printed form of a registry. -/
def printed (registry : Registry) : String := s!"RuleRegistry({registry.entries.length} rules)"

end Registry

/-- Whether a name, of whatever type, is among names; some values cannot be looked up. -/
def hasName (names : List String) (name : Value) : Outcome Bool :=
  match name.unhashableType? with
  | some typeName => .error (.unhashable typeName)
  | none =>
    match name with
    | .str name => .ok (names.contains name)
    | _ => .ok false

/-- Sets the entry of a key in a dictionary of things written as rules. -/
def insertWritten (key : Value) (written : Written) :
    List (Value × Written) → List (Value × Written)
  | [] => [(key, written)]
  | (other, old) :: rest =>
    if Value.same other key then (other, written) :: rest
    else (other, old) :: insertWritten key written rest

/-- The entries of a dictionary: keys that are text are identifiers, and under any other key the
identifier follows from the rule. -/
def keyedEntries (sum : List (Value × Written)) :
    List (Value × Written) → Outcome (List (Option String × Written))
  | [] => .ok (sum.map fun (key, written) =>
      (match key with
        | .str identifier => some identifier
        | _ => none, written))
  | (key, written) :: rest =>
    match key.unhashableType? with
    | some typeName => .error (.unhashable typeName)
    | none => keyedEntries (insertWritten key written sum) rest

namespace Factory

/-- What is written as a maker of rules. -/
def ofWritten (rules : RuleStore) : Written → Outcome Factory
  | .rule id => .ok (.shared id)
  | .ofClass (.rules c) => .ok (.ofClass c)
  | .ofClass (.abstract name) => .error (.invalidRule (.abstractClass name))
  | .ofClass (.foreign name) => .error (.invalidRule (.foreign name))
  | .callable c => .ok (.callable c)
  | written => .error (.invalidRule (.notAnEntry (written.typeName rules)))

/-- A rule made without arguments. -/
def instantiate (factory : Factory) : Task RuleId := do
  let rules := (← get).rules
  let made ← tryCatch (factory.make []) fun cause =>
    throw (if cause.isRejection then .needsArguments (factory.name rules) cause else cause)
  match made with
  | .inl id => return id
  | .inr typeName => throw (.invalidRule (.foreign typeName))

end Factory

namespace Registry

/-- The identifier that follows from the rules that a maker makes. -/
def derivedIdentifier (factory : Factory) : Task String := do
  let rule ← Task.ruleOf (← factory.instantiate)
  if rule.name = "" then
    throw (.invalidRule (.nameless (← Task.ofOutcome rule.kind.print)))
  return rule.name

/-- Checks an entry and settles its identifier. -/
def prepare (written : Written) (identifier : Option String) : Task (String × Factory) := do
  let factory ← Task.ofOutcome (Factory.ofWritten (← get).rules written)
  match identifier with
  | some "" => throw (.invalidRule .emptyIdentifier)
  | some identifier => return (identifier, factory)
  | none => return (← derivedIdentifier factory, factory)

/-- Checks several entries. -/
def prepareAll : List (Option String × Written) → Task (List (String × Factory))
  | [] => return []
  | (identifier, written) :: entries => do
    let prepared ← prepare written identifier
    return prepared :: (← prepareAll entries)

/-- Adds checked entries. -/
def addEntries (prepared : List (String × Factory)) : Task Unit :=
  modify fun w =>
    { w with registry := { w.registry with entries := w.registry.entries.putAll prepared } }

/-- Registers a rule and gives its identifier. -/
def register (written : Written) (identifier : Option String) : Task String := do
  let prepared ← prepare written identifier
  addEntries [prepared]
  Task.log (.registered prepared.1)
  return prepared.1

/-- Registers several rules, or none of them if one cannot be. -/
def extend (entries : List (Option String × Written)) : Task Unit := do
  if entries.isEmpty then return
  let prepared ← prepareAll entries
  addEntries prepared
  Task.log (.extended (prepared.map (·.1)))

/-- Makes the rule of an identifier. -/
def build (identifier : String) (arguments : List Value) : Task RuleId := do
  let factory ← Task.ofOutcome ((← get).registry.resolve identifier)
  factory.construct identifier arguments

end Registry

end FieldRules
