import FieldRules.Log.Formatter
import FieldRules.Shelf

/-! # Loggers and handlers

A logger offers the records that reach its level to its handlers.  Loggers hold lists of handlers,
not handlers: a list may be shared, and what is added to it is added for all that share it.  A
handler that fails is passed over.
-/

namespace FieldRules

/-- Where a handler puts records. -/
inductive LogOutput where
  /-- The records themselves are kept. -/
  | memory
  /-- They are written into a text. -/
  | stream (buffer : Nat)
  /-- They are written where nothing is read back. -/
  | console
  /-- Every record fails. -/
  | broken
  deriving DecidableEq, Repr, Inhabited

/-- A handler. -/
structure LogHandler where
  output : LogOutput
  formatter : Formatter := .standard
  level : LogLevel := .debug
  records : List LogRecord := []
  deriving Inhabited

/-- The name of the class of a handler. -/
def LogHandler.className (handler : LogHandler) : String :=
  match handler.output with
  | .memory => "MemoryHandler"
  | .stream _ | .console => "StreamHandler"
  | .broken => "LogHandler"

/-- A logger. -/
structure Logger where
  name : String := "validex"
  level : LogLevel := .warning
  /-- The list of its handlers. -/
  handlers : Nat
  context : Keyed Detail := []
  deriving Inhabited

/-- All there is to logging. -/
structure Logging where
  handlers : Shelf LogHandler := .empty
  buffers : Shelf String := .empty
  lists : Shelf (List Nat) := .empty
  loggers : Shelf Logger := .empty
  /-- The loggers that are asked for by name. -/
  known : Keyed Nat := []
  /-- The level that was configured for all loggers. -/
  level : Option LogLevel := none
  deriving Inhabited

namespace Logging

/-- The list of handlers that loggers share unless they are given one. -/
def sharedList : Nat := 0

/-- Adds a logger that is asked for by name. -/
def addKnown (logging : Logging) (logger : Logger) : Nat × Logging :=
  let (id, loggers) := logging.loggers.add logger
  (id, { logging with loggers, known := logging.known.put logger.name id })

/-- Logging with loggers of the given names at a level, which share a list of the given
handlers. -/
def ofNames (names : List String) (handlers : List LogHandler := [])
    (level : LogLevel := .warning) : Logging :=
  let start : Logging := {
    handlers := handlers.foldl (fun sum handler => (sum.add handler).2) .empty
    lists := (Shelf.empty.add (List.range handlers.length)).2 }
  names.foldl (fun sum name => (sum.addKnown { name, level, handlers := sharedList }).2) start

/-- Writes a line into a text. -/
def writeLine (logging : Logging) (buffer : Nat) (line : String) : Logging :=
  { logging with buffers := logging.buffers.modify buffer fun text => text ++ line ++ "\n" }

/-- Puts a record where a handler puts its records. -/
def emit (logging : Logging) (id : Nat) (record : LogRecord) : Outcome Logging :=
  let handler := logging.handlers.item id
  match handler.output with
  | .memory =>
    let handler := { handler with records := handler.records ++ [record] }
    .ok { logging with handlers := logging.handlers.set id handler }
  | .stream buffer => (handler.formatter.format record).map (logging.writeLine buffer)
  | .console => (handler.formatter.format record).map fun _ => logging
  | .broken => .error .notImplemented

/-- Has a handler take a record, if the record reaches the level of the handler. -/
def handle (logging : Logging) (record : LogRecord) (id : Nat) : Outcome Logging :=
  if record.level.reaches (logging.handlers.item id).level then logging.emit id record
  else .ok logging

/-- Offers a record to a handler.  Whatever the handler faults with, it is passed over. -/
def offer (logging : Logging) (record : LogRecord) (id : Nat) : Logging :=
  match logging.handle record id with
  | .ok changed => changed
  | .error _ => logging

/-- The handlers of a logger. -/
def handlersOf (logging : Logging) (logger : Logger) : List Nat :=
  logging.lists.item logger.handlers

/-- Logs a message. -/
def log (logging : Logging) (now : Calendar.DateTime) (id : Nat) (level : LogLevel)
    (message : String) (context : Keyed Detail) (fault : Option LoggedFault) : Logging :=
  let logger := logging.loggers.item id
  if level.reaches logger.level then
    let record : LogRecord := {
      level, message, timestamp := now, context := logger.context.putAll context, fault
      logger := logger.name }
    (logging.handlersOf logger).foldl (fun sum handler => sum.offer record handler) logging
  else logging

/-- Adds a handler. -/
def addHandler (logging : Logging) (handler : LogHandler) : Nat × Logging :=
  let (id, handlers) := logging.handlers.add handler
  (id, { logging with handlers })

/-- Adds a handler that writes into a text of its own. -/
def addStream (logging : Logging) (formatter : Formatter) (level : LogLevel) : Nat × Logging :=
  let (buffer, buffers) := logging.buffers.add ""
  { logging with buffers }.addHandler { output := .stream buffer, formatter, level }

/-- Adds a logger with a list of handlers of its own. -/
def addLogger (logging : Logging) (name : String) (level : LogLevel) (handlers : List Nat) :
    Nat × Logging :=
  let (list, lists) := logging.lists.add handlers
  let (id, loggers) := logging.loggers.add { name, level, handlers := list }
  (id, { logging with lists, loggers })

/-- Adds a logger that shares the handlers of another and has more details. -/
def derive (logging : Logging) (id : Nat) (context : Keyed Detail) : Nat × Logging :=
  let logger := logging.loggers.item id
  let (id, loggers) :=
    logging.loggers.add { logger with context := logger.context.putAll context }
  (id, { logging with loggers })

/-- Adds a handler to the list of a logger. -/
def attach (logging : Logging) (id handler : Nat) : Logging :=
  let list := (logging.loggers.item id).handlers
  { logging with lists := logging.lists.modify list (· ++ [handler]) }

/-- Takes a handler off the list of a logger. -/
def detach (logging : Logging) (id handler : Nat) : Outcome Logging :=
  let list := (logging.loggers.item id).handlers
  if (logging.lists.item list).contains handler then
    .ok { logging with lists := logging.lists.modify list (·.erase handler) }
  else .error .notInList

/-- Adds a logger under a name that is not known yet.  If the shared list has no handlers, it
gets one with the given output format. -/
def introduce (logging : Logging) (name : String) (level : LogLevel) (format : Value) :
    Nat × Logging :=
  if (logging.lists.item sharedList).isEmpty then
    let (handler, logging) :=
      logging.addHandler { output := .console, formatter := .ofFormat format }
    { logging with lists := logging.lists.set sharedList [handler] }.addKnown
      { name, level, handlers := sharedList }
  else logging.addKnown { name, level, handlers := sharedList }

/-- Sets the level of a logger. -/
def setLevel (logging : Logging) (id : Nat) (level : LogLevel) : Logging :=
  { logging with loggers := logging.loggers.modify id fun logger => { logger with level } }

/-- Configures all known loggers: they have the level and share the handlers. -/
def configure (logging : Logging) (level : LogLevel) (handlers : List Nat) : Logging :=
  let loggers := logging.known.foldl (fun sum entry =>
    sum.modify entry.2 fun logger => { logger with level, handlers := sharedList }) logging.loggers
  { logging with
    level := some level, lists := logging.lists.set sharedList handlers, loggers }

end Logging

end FieldRules
