import FieldRules.Log.Record
import FieldRules.Template.Fill

/-! # Writing records

A record is written by a template, with its details behind the message, or in JSON.
-/

namespace FieldRules

/-- A way to write records. -/
inductive Formatter where
  /-- By a template, which may ask the host for members of what it is filled in with. -/
  | text (template dateFormat : String) (host : Template.Host := .bare)
  | json
  /-- A way that is left open. -/
  | base
  deriving Inhabited

namespace Formatter

/-- The template that is used unless another one is given. -/
def standardTemplate : String :=
  "\x7btimestamp\x7d [\x7blevel\x7d] \x7blogger\x7d: \x7bmessage\x7d"

/-- The date format that is used unless another one is given. -/
def standardDateFormat : String := "%Y-%m-%d %H:%M:%S"

/-- Text by a template; an empty one gives way to the standard one. -/
def ofTemplate (template dateFormat : Option String) (host : Template.Host := .bare) : Formatter :=
  .text (match template with
    | none | some "" => standardTemplate
    | some template => template)
    (dateFormat.getD standardDateFormat) host

/-- Standard text. -/
def standard : Formatter := ofTemplate none none

/-- The formatter for an output format. -/
def ofFormat (format : Value) : Formatter :=
  if Value.same format (.str "json") then .json else standard

/-- The name of the class of a formatter. -/
def className : Formatter → String
  | .text .. => "TextFormatter"
  | .json => "JsonFormatter"
  | .base => "LogFormatter"

/-- The details of a record, one after the other. -/
def contextText : List (String × Detail) → Outcome (List String)
  | [] => .ok []
  | (key, detail) :: rest => do
    let shown ← detail.plain
    return (key ++ "=" ++ shown) :: (← contextText rest)

/-- The message of a record with its details. -/
def messageText (record : LogRecord) : Outcome String :=
  if record.context.isEmpty then .ok record.message
  else do return record.message ++ " " ++ Text.joinWith " " (← contextText record.context)

/-- What templates of records are filled in with. -/
def recordSupply (fields : List (String × String)) (host : Template.Host) : Template.Supply where
  named name :=
    match fields.lookup name with
    | some shown => .ok (.str shown)
    | none => .error (.missingKey (.str name))
  placed := .positionOutOfRange
  host

/-- Writes a record. -/
def format (formatter : Formatter) (record : LogRecord) : Outcome String :=
  match formatter with
  | .json => record.toJson
  | .base => .error .notImplemented
  | .text template dateFormat host => do
    let message ← messageText record
    let fields := [("timestamp", record.timestamp.formatted dateFormat),
      ("level", record.level.name), ("message", message), ("logger", record.logger)]
    let line ← Template.fill (recordSupply fields host) template
    match record.fault with
    | some fault => return line ++ "\n" ++ fault.line
    | none => return line

end Formatter

end FieldRules
