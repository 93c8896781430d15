import FieldRules.Json.Writer
import FieldRules.Keyed

/-! # Results

The errors of attributes, and the result of a validation: whether it is valid, the values that
passed, and the errors.
-/

namespace FieldRules

/-- The messages of attributes. -/
abbrev Errors := Keyed (List Value)

namespace Errors

/-- The messages of an attribute. -/
def messagesOf (errors : Errors) (name : String) : List Value := (errors.get? name).getD []

/-- All messages in order. -/
def all (errors : Errors) : List Value := errors.flatMap (·.2)

/-- The first message of the first attribute that has one. -/
def earliest : Errors → Option Value
  | [] => none
  | (_, []) :: rest => earliest rest
  | (_, message :: _) :: _ => some message

/-- The first message of an attribute, or of all if none is named. -/
def first (errors : Errors) (name : Option String) : Option Value :=
  match name with
  | none | some "" => errors.earliest
  | some name => (errors.messagesOf name).head?

/-- The errors as a value. -/
def toValue (errors : Errors) : Value :=
  .dict (errors.map fun (name, messages) => (.str name, .list messages))

end Errors

/-- The result of a validation. -/
structure ValidationResult where
  valid : Bool
  data : Keyed Value := []
  errors : Errors := []

namespace ValidationResult

/-- The result in JSON, without the data. -/
def toJson (result : ValidationResult) : Outcome String :=
  Json.write Json.refuse
    (.dict [(.str "valid", .bool result.valid), (.str "errors", result.errors.toValue)])

/-- Faults if the result is not valid. -/
def orFail (result : ValidationResult) : Outcome Unit :=
  if result.valid then .ok () else .error (.validationFailed result.errors)

end ValidationResult

end FieldRules
