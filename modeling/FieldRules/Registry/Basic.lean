import FieldRules.Keyed
import FieldRules.Rule.Printed
import FieldRules.Rule.Store

/-! # Registries

A registry gives identifiers their makers of rules.  It also keeps the rule strings that were
read through it: once a string is read, what it means stays the same.
-/

namespace FieldRules

/-- One rule of a rule string, with the maker that its identifier had when it was read. -/
structure Token where
  identifier : String
  arguments : List String
  factory : Factory

/-- A registry. -/
structure Registry where
  entries : Keyed Factory := []
  /-- The rule strings that were read, with their tokens. -/
  cache : Keyed (List Token) := []
  /-- How often a kept string was asked for. -/
  hits : Nat := 0
  /-- How often a string had to be read. -/
  misses : Nat := 0

/-- A message for the log: who says it, what, and with which details. -/
structure LogEvent where
  source : String
  message : String
  context : List (String × Value)

namespace LogEvent

/-- The source of messages about registries. -/
def registrySource : String := "validex.validation.registry"

/-- The source of messages about rule strings. -/
def ruleStringSource : String := "validex.validation.parser"

/-- The source of messages about validation. -/
def validatorSource : String := "validex.validation.validator"

/-- A rule is registered. -/
def registered (identifier : String) : LogEvent :=
  ⟨registrySource, "Rule registered", [("identifier", .str identifier)]⟩

/-- Several rules are registered. -/
def extended (identifiers : List String) : LogEvent :=
  ⟨registrySource, "Registry extended", [("identifiers", .str (Text.joinWith "," identifiers))]⟩

/-- A rule string is read. -/
def parsed (spec : String) (count : Nat) : LogEvent :=
  ⟨ruleStringSource, "Parsed rule string", [("spec", .str spec), ("rules", .int count)]⟩

/-- The rules of an attribute do not apply. -/
def bypassed (name : String) : LogEvent :=
  ⟨validatorSource, "Attribute bypassed", [("attribute", .str name)]⟩

/-- A run ends with its first failure. -/
def stopped (name : String) : LogEvent :=
  ⟨validatorSource, "Validation stopped", [("attribute", .str name)]⟩

/-- A run ends. -/
def finished (attributes failed : Nat) : LogEvent :=
  ⟨validatorSource, "Validation finished",
    [("attributes", .int attributes), ("failed", .int failed)]⟩

end LogEvent

/-- What operations work on: a registry, the rules that exist, the calls of labelled functions
with what they were called on, and the messages for the log. -/
structure Workspace where
  registry : Registry := {}
  rules : RuleStore := .empty
  seen : List (String × Value) := []
  events : List LogEvent := []

/-- An operation on a workspace.  What it did before a fault stays done. -/
abbrev Task (α : Type) := ExceptT Fault (StateM Workspace) α

namespace Task

/-- A task that only asks for something. -/
def ofOutcome {α : Type} (outcome : Outcome α) : Task α := ExceptT.mk (pure outcome)

/-- Writes a message for the log. -/
def log (event : LogEvent) : Task Unit :=
  modify fun w => { w with events := w.events ++ [event] }

/-- Gives a new rule an identity. -/
def addRule (rule : Rule) : Task RuleId := do
  let w ← get
  let (id, rules) := w.rules.add rule
  set { w with rules := rules }
  return id

/-- The rule of an identity. -/
def ruleOf (id : RuleId) : Task Rule := return (← get).rules.item id

/-- Sets the rule of an identity. -/
def setRule (id : RuleId) (rule : Rule) : Task Unit :=
  modify fun w => { w with rules := w.rules.set id rule }

end Task

/-- Calls a function; the call is recorded if the function has a label. -/
def Callable.call (c : Callable) (arguments : List Value) : Task Product := do
  if c.isUnary then
    Task.ofOutcome (checkArguments c.name 0 ["value"] 0 arguments.length)
  match c.label with
  | some label =>
    modify fun w => { w with seen := w.seen ++ [(label, arguments.headD .none)] }
  | none => pure ()
  Task.ofOutcome (c.run arguments)

/-- The rule that a function gave, if it is one, or else the name of its type. -/
def Product.rule? : Product → Task (RuleId ⊕ String)
  | .shared id => return .inl id
  | .fresh rule => return .inl (← Task.addRule rule)
  | .value v => return .inr v.typeName
  | .foreign typeName => return .inr typeName

namespace Factory

/-- What a maker of rules makes from arguments, if it does not fault. -/
def make (factory : Factory) (arguments : List Value) : Task (RuleId ⊕ String) := do
  match factory with
  | .shared id => return .inl id
  | .ofClass c => return .inl (← Task.addRule (← Task.ofOutcome (c.build arguments)))
  | .callable c => (← c.call arguments).rule?

/-- The name of a maker of rules in messages. -/
def name (rules : RuleStore) : Factory → String
  | .shared id => (rules.item id).kind.className
  | .ofClass c => c.name
  | .callable c => c.name

/-- The fault of a maker that faulted: it is reported with the arguments if it rejects them, and
left as it is otherwise. -/
def buildFault (identifier : String) (arguments : List Value) (cause : Fault) : Fault :=
  if cause.isRejection then
    if (Value.list arguments).printed?.isSome then .buildFailed identifier arguments cause
    else .unprintable
  else cause

/-- Makes a rule from arguments. -/
def construct (factory : Factory) (identifier : String) (arguments : List Value) :
    Task RuleId :=
  match factory with
  | .shared id =>
    if arguments.isEmpty then pure id
    else throw (.invalidRule (.instanceArguments identifier))
  | factory => do
    let made ← tryCatch (factory.make arguments) fun cause =>
      throw (buildFault identifier arguments cause)
    match made with
    | .inl id => return id
    | .inr typeName => throw (.invalidRule (.notARule identifier typeName))

end Factory

end FieldRules
