import FieldRules.Session.Basic

/-! # Settings of a session -/

namespace FieldRules.Session

/-- Adds settings with a tree of defaults and an environment. -/
def newSettings (defaults : Value) (environment : List (String × String)) : Action Nat := do
  let added ← ofOutcome (Settings.ofDefaults defaults environment)
  let session ← get
  let (id, settings) := session.settings.add added
  set { session with settings }
  return id

/-- Adds to settings what variables give. -/
def loadEnvironment (id : Nat) (environment : List (String × String)) : Action Unit := do
  let session ← get
  let changed ← ofOutcome ((session.settings.item id).loadEnvironment environment)
  set { session with settings := session.settings.set id changed }

end FieldRules.Session
