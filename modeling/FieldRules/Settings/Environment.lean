import FieldRules.Json.Reader
import FieldRules.Keyed
import FieldRules.Settings.Tree
import FieldRules.Text.Case

/-! # Settings from the environment

A variable whose name begins with `VALIDEX_` is a setting: the rest of its name in small letters,
with two underscores between sections.  Its text becomes a truth value, a number or a structure if
it denotes one.
-/

namespace FieldRules.Settings

open FieldRules.Text

/-- What the names of variables that are settings begin with. -/
def variableMark : String := "VALIDEX_"

/-- The words for true. -/
def trueWords : List String := ["true", "yes", "on"]

/-- The words for false. -/
def falseWords : List String := ["false", "no", "off"]

/-- The structure that a text denotes, or the text itself. -/
def readStructure (text : String) : Outcome Value :=
  if beginsWith text "\x7b" || beginsWith text "[" then
    match Json.read text with
    | .ok value => .ok value
    | .error .malformed => .ok (.str text)
    | .error (.tooManyDigits count) => .error (.tooManyDigits count)
  else .ok (.str text)

/-- The value of the text of a variable. -/
def readText (text : String) : Outcome Value :=
  if trueWords.contains (lower text) then .ok (.bool true)
  else if falseWords.contains (lower text) then .ok (.bool false)
  else match Number.readInteger text.toList with
    | .ok n => .ok (.int n)
    | .error _ =>
      match Number.readDecimal? text.toList with
      | some x => .ok (.float x)
      | none => readStructure text

/-- The key of the setting that a variable is, if it is one. -/
def variableKey? (name : String) : Option String :=
  if beginsWith name variableMark then
    let rest := String.ofList (name.toList.drop variableMark.length)
    some (String.ofList (dotPairs (lower rest).toList))
  else none

/-- Reads one variable into the settings by key. -/
def addVariable (found : Keyed Value) (entry : String × String) : Outcome (Keyed Value) :=
  match variableKey? entry.1 with
  | some key => (readText entry.2).map fun value => found.put key value
  | none => .ok found

/-- The settings by key that variables give. -/
def readVariables (environment : List (String × String)) : Outcome (Keyed Value) :=
  (Keyed.ofList environment).foldlM addVariable []

end FieldRules.Settings
