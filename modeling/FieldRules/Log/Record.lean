import FieldRules.Log.Detail
import FieldRules.Text.Case

/-! # Log records

A record is a message of a logger at a level, with details and perhaps a fault that it reports.
Its form in JSON is one object.
-/

namespace FieldRules

/-- The importance of a message. -/
inductive LogLevel where
  | debug | info | warning | error | critical
  deriving DecidableEq, Repr, Inhabited

namespace LogLevel

/-- All levels. -/
def all : List LogLevel := [.debug, .info, .warning, .error, .critical]

/-- The name of a level. -/
def name : LogLevel → String
  | .debug => "DEBUG"
  | .info => "INFO"
  | .warning => "WARNING"
  | .error => "ERROR"
  | .critical => "CRITICAL"

/-- The number of a level; more important ones have higher numbers. -/
def number : LogLevel → Nat
  | .debug => 10
  | .info => 20
  | .warning => 30
  | .error => 40
  | .critical => 50

/-- Whether a level is at least as important as another. -/
def reaches (level bound : LogLevel) : Bool := bound.number ≤ level.number

/-- The level that a value denotes: texts are names, and other values must equal the number. -/
def read (value : Value) : Outcome LogLevel :=
  match value with
  | .str s =>
    let wanted := Text.upper (Text.stripped s)
    match all.find? fun level => level.name == wanted with
    | some level => .ok level
    | none => .error (.missingKey (.str wanted))
  | value =>
    match all.find? fun level => Value.same value (.int level.number) with
    | some level => .ok level
    | none =>
      if value.printed?.isSome then .error (.notALevel value) else .error .unprintable

end LogLevel

/-- A fault that a message reports. -/
structure LoggedFault where
  /-- The name of its kind. -/
  kind : String
  text : String
  deriving DecidableEq, Repr, Inhabited

namespace LoggedFault

/-- The text of a fault; that of a missing key is quoted. -/
def shown (fault : LoggedFault) : String :=
  if fault.kind = "KeyError" then Text.quoted fault.text else fault.text

/-- The line that reports a fault. -/
def line (fault : LoggedFault) : String :=
  fault.kind ++ (if fault.shown = "" then "" else ": " ++ fault.shown) ++ "\n"

end LoggedFault

/-- A message with its circumstances. -/
structure LogRecord where
  level : LogLevel
  message : String
  timestamp : Calendar.DateTime
  context : Keyed Detail := []
  fault : Option LoggedFault := none
  logger : String := "validex"
  deriving Inhabited

namespace LogRecord

/-- A reported fault as a value. -/
def faultValue (fault : LoggedFault) : Value :=
  .dict [(.str "type", .str fault.kind), (.str "message", .str fault.shown),
    (.str "traceback", .list [.str fault.line])]

/-- A record as an object; details and a fault are left out if there are none. -/
def toDetail (record : LogRecord) : Detail :=
  .named ([
      ("timestamp", .str record.timestamp.isoText),
      ("level", .str record.level.name),
      ("message", .str record.message),
      ("logger", .str record.logger)] ++
    (if record.context.isEmpty then [] else [("context", .named record.context)]) ++
    (match record.fault with
     | some fault => [("exception", .value (faultValue fault))]
     | none => []))

/-- A record in JSON. -/
def toJson (record : LogRecord) : Outcome String := record.toDetail.write

end LogRecord

end FieldRules
