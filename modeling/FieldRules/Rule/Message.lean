import FieldRules.Rule.Basic
import FieldRules.Template.Fill

/-! # Messages of rules

The message of a failure is the rule's template, filled in with the name of the attribute and the
bounds of the rule.  A name that stands for nothing is left as it is written, and so is a template
that cannot be filled in.
-/

namespace FieldRules

namespace RuleKind

/-- The bounds that templates of a kind may name; kinds without bounds leave them to the
caller. -/
def parameters? : RuleKind → Option (List (String × Value))
  | .min bound => some [("min", .ofNumber bound)]
  | .max bound => some [("max", .ofNumber bound)]
  | .length least most => some [("min", .int least), ("max", .int most)]
  | _ => none

/-- The class that makes the messages of a kind. -/
def messageClass : RuleKind → String
  | .min _ => "Min"
  | .max _ => "Max"
  | .length .. => "Length"
  | _ => "Rule"

end RuleKind

/-- A name between braces. -/
def asField (name : String) : String := "\x7b" ++ name ++ "\x7d"

/-- What templates of rules are filled in with. -/
def messageSupply (label : String) (parameters : List (String × Value))
    (host : Template.Host) : Template.Supply where
  named name :=
    if name = "attribute" then .ok (.str label)
    else .ok ((parameters.lookup name).getD (.str (asField name)))
  placed _ := .template .positional
  host

/-- Whether a fault in filling in a template leaves the template as it is written. -/
def Fault.keepsTemplate (fault : Fault) : Bool :=
  fault.family == .member || fault.family == .index || fault.isValueFault

namespace Rule

/-- The message of a failure, given what callers supply for the fields of the template. -/
def message (rule : Rule) (label : String) (supplied : List (String × Value) := []) :
    Outcome String :=
  let parameters := rule.kind.parameters?.getD supplied
  match Template.fill (messageSupply label parameters rule.host) rule.template with
  | .ok text => .ok text
  | .error fault => if fault.keepsTemplate then .ok rule.template else .error fault

/-- The message of a failure; callers may not supply what the rule itself sets. -/
def messageWith (rule : Rule) (label : String) (supplied : List (String × Value)) :
    Outcome String :=
  match supplied.find? fun entry => entry.1 = "self" || entry.1 = "attribute" with
  | some (name, _) => .error (.call (.repeated (rule.kind.messageClass ++ ".get_message") name))
  | none => rule.message label supplied

end Rule

end FieldRules
