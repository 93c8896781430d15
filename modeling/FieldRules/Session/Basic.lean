import FieldRules.Log.Logging
import FieldRules.Registry.RuleString
import FieldRules.Rule.Recipe
import FieldRules.Settings.Basic
import FieldRules.Validation.Run

/-! # Sessions

A session holds everything that lasts: registries, rules, settings, validators and logging.  The
first registry and the first settings are those that are used unless others are named.  What an
operation writes for the log is delivered when it is done, so that logging cannot change what it
does.
-/

namespace FieldRules

/-- Data with their rules. -/
structure Validator where
  registry : Nat
  data : Keyed Value
  overrides : Keyed Value
  /-- The errors of the last run. -/
  errors : Errors := []
  stops : Bool
  table : RuleTable
  deriving Inhabited

/-- Overrides of messages, with the registry whose identifiers address rules. -/
structure Resolver where
  overrides : Keyed Value
  registry : Option Nat
  deriving Inhabited

instance : Inhabited Registry := ⟨{}⟩

/-- The sources that have a logger from the beginning. -/
def LogEvent.sources : List String := [registrySource, ruleStringSource, validatorSource]

/-- Everything that lasts.  Unless it is said otherwise, there are no handlers in the beginning. -/
structure Session where
  registries : Shelf Registry := (Shelf.empty.add .standard).2
  rules : RuleStore := .empty
  /-- How many functions there are. -/
  functions : Nat := 0
  /-- The calls of labelled functions. -/
  seen : List (String × Value) := []
  settings : Shelf Settings := (Shelf.empty.add .standard).2
  validators : Shelf Validator := .empty
  logging : Logging := .ofNames LogEvent.sources
  /-- The time that records bear. -/
  now : Calendar.DateTime := { date := ⟨2024, 1, 1⟩ }
  deriving Inhabited

/-- An operation on a session.  What it did before a fault stays done. -/
abbrev Action (α : Type) := ExceptT Fault (StateM Session) α

namespace Session

/-- The registry and the settings that are used unless others are named. -/
def mainId : Nat := 0

/-- Delivers a message for the log. -/
def deliver (now : Calendar.DateTime) (logging : Logging) (event : LogEvent) : Logging :=
  match logging.known.get? event.source with
  | some id => logging.log now id .debug event.message event.context none
  | none => logging

/-- The workspace of a registry. -/
def workspace (session : Session) (registry : Nat) : Workspace :=
  { registry := session.registries.item registry, rules := session.rules, seen := session.seen }

/-- Takes a workspace back into the session. -/
def absorb (session : Session) (registry : Nat) (w : Workspace) : Session :=
  { session with
    registries := session.registries.set registry w.registry
    rules := w.rules
    seen := w.seen
    logging := w.events.foldl (deliver session.now) session.logging }

/-- Does a task with a registry. -/
def inRegistry {α : Type} (registry : Nat) (task : Task α) : Action α := fun session =>
  let (outcome, w) := task (session.workspace registry)
  (outcome, session.absorb registry w)

/-- Does a task with settings. -/
def inSettings {α : Type} (id : Nat) (task : SettingsTask α) : Action α := fun session =>
  let (outcome, settings) := task (session.settings.item id)
  (outcome, { session with settings := session.settings.set id settings })

/-- Changes logging. -/
def changeLogging (f : Logging → Logging) : Action Unit :=
  modify fun session => { session with logging := f session.logging }

/-- Changes logging and keeps an identity that this gives. -/
def addToLogging (f : Logging → Nat × Logging) : Action Nat := do
  let session ← get
  let (id, logging) := f session.logging
  set { session with logging }
  return id

/-- An action that only asks for something. -/
def ofOutcome {α : Type} (outcome : Outcome α) : Action α := ExceptT.mk (pure outcome)

end Session

end FieldRules
