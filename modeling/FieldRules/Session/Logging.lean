import FieldRules.Session.Basic

/-! # Logging of a session

Loggers that are asked for by name, and the configuration of all of them.
-/

namespace FieldRules.Session

/-- The level of a logger that is not known yet. -/
def newLevel (asked : Option LogLevel) : Action LogLevel := do
  match asked, (← get).logging.level with
  | some level, _ => return level
  | none, some level => return level
  | none, none =>
    let setting ← inSettings mainId (Settings.value "logging.level" (.str "WARNING"))
    ofOutcome (LogLevel.read setting)

/-- The logger of a name; a level that is asked for is set. -/
def getLogger (name : String) (asked : Option LogLevel) : Action Nat := do
  match (← get).logging.known.get? name with
  | some id =>
    match asked with
    | some level => changeLogging (·.setLevel id level)
    | none => pure ()
    return id
  | none =>
    let level ← newLevel asked
    let logging := (← get).logging
    let format ←
      if (logging.lists.item Logging.sharedList).isEmpty then
        inSettings mainId (Settings.value "logging.format" (.str "text"))
      else pure (.str "text")
    addToLogging (·.introduce name level format)

/-- Configures all loggers.  Without handlers they get one that writes in a format, into the text
of a handler if one is named. -/
def configureLogging (level : LogLevel) (format : Value) (handlers : Option (List Nat))
    (stream : Option Nat) : Action Unit := do
  let handlers ← match handlers with
    | some handlers => pure handlers
    | none => do
      let logging := (← get).logging
      let output := match stream.map fun id => (logging.handlers.item id).output with
        | some output => output
        | none => .console
      let id ← addToLogging (·.addHandler { output, formatter := .ofFormat format })
      pure [id]
  changeLogging (·.configure level handlers)

/-- The parameters of logging that details may not name again. -/
def reservedNames : List String := ["self", "message"]

/-- The parameters that details may not name at the next step. -/
def laterReservedNames : List String := ["level"]

/-- Logs a message with details. -/
def logMessage (id : Nat) (level : LogLevel) (message : String) (context : Keyed Detail)
    (fault : Option LoggedFault) : Action Unit := do
  match context.find? fun entry => reservedNames.contains entry.1 with
  | some (name, _) =>
    throw (.call (.repeated ("Logger." ++ level.name.toLower) name))
  | none =>
    match context.find? fun entry => laterReservedNames.contains entry.1 with
    | some (name, _) => throw (.call (.repeated "Logger._log" name))
    | none => modify fun session => { session with
        logging := session.logging.log session.now id level message context fault }

end FieldRules.Session
