import FieldRules.Template.Host
import FieldRules.Text.Words

/-! # Rules

A rule checks one value.  What it checks is its kind; beside that it has a template for the
message of a failure, a name, two marks that let values pass unchecked, and the violation codes
that its last check recorded.
-/

namespace FieldRules

/-- What a check finds: the violation codes it records, and whether the value is valid. -/
structure Report where
  codes : List Value := []
  result : Outcome Bool

namespace Report

/-- A check that decides without recording a code. -/
def decided (valid : Bool) : Report := { result := .ok valid }

/-- A failure for a reason. -/
def violated (code : String) : Report := { codes := [.str code], result := .ok false }

/-- A check that cannot be made. -/
def faulted (fault : Fault) : Report := { result := .error fault }

/-- A check that decides unless it faults. -/
def ofOutcome (result : Outcome Bool) : Report := { result }

end Report

/-- A rule that is not built in. -/
structure CustomRule where
  /-- The name of its class. -/
  className : String
  /-- Its printed form, none if it has no text. -/
  printed? : Option String
  /-- Its name, if it does not follow from the name of its class. -/
  name : Option String := none
  template : String
  /-- Whether it makes the other rules of an attribute optional. -/
  isSometimes : Bool := false
  /-- What makes it equal to others of its class; none if it equals only itself. -/
  fields : Option (List Value) := none
  check : Value → Report

/-- The pattern of a rule, or a value that is no pattern. -/
inductive PatternSource where
  | pattern (pattern : Pattern)
  | other (value : Value)

/-- What a rule checks. -/
inductive RuleKind where
  /-- The other rules of the attribute apply only to values that are there. -/
  | sometimes
  | required
  | email
  | url
  | min (bound : Number)
  | max (bound : Number)
  | length (least most : Int)
  | regex (source : PatternSource)
  | within (allowed : List Value)
  | outside (disallowed : List Value)
  | numeric
  | integer
  | alpha
  | alphaNumeric
  | date (format : Value)
  | uuid (version : Option Int)
  | json
  | array
  | boolean
  /-- The outcome of a callable rule: whether it holds, its name, and its violation codes. -/
  | wrapped (valid : Bool) (name : String) (codes : List String)
  | custom (rule : CustomRule)

namespace RuleKind

/-- The name of the class of a kind. -/
def className : RuleKind → String
  | .sometimes => "Sometimes"
  | .required => "Required"
  | .email => "Email"
  | .url => "Url"
  | .min _ => "Min"
  | .max _ => "Max"
  | .length .. => "Length"
  | .regex _ => "Regex"
  | .within _ => "In"
  | .outside _ => "NotIn"
  | .numeric => "Numeric"
  | .integer => "Integer"
  | .alpha => "Alpha"
  | .alphaNumeric => "AlphaNumeric"
  | .date _ => "Date"
  | .uuid _ => "Uuid"
  | .json => "Json"
  | .array => "Array"
  | .boolean => "Boolean"
  | .wrapped .. => "CallableRuleWrapper"
  | .custom rule => rule.className

/-- The name that the class of a kind gives to its rules. -/
def standardName : RuleKind → Option String
  | .sometimes => some "sometimes"
  | .required => some "required"
  | .email => some "email"
  | .url => some "url"
  | .min _ => some "min"
  | .max _ => some "max"
  | .length .. => some "length"
  | .regex _ => some "regex"
  | .within _ => some "in"
  | .outside _ => some "not_in"
  | .numeric => some "numeric"
  | .integer => some "integer"
  | .alpha => some "alpha"
  | .alphaNumeric => some "alpha_numeric"
  | .date _ => some "date"
  | .uuid _ => some "uuid"
  | .json => some "json"
  | .array => some "array"
  | .boolean => some "boolean"
  | .wrapped .. => none
  | .custom rule => rule.name

/-- The field of a template for the name of the attribute. -/
def attributeField : String := "\x7battribute\x7d"

/-- The template of rules that do not give one. -/
def plainTemplate : String := "The " ++ attributeField ++ " is invalid"

/-- The template of a length, which is a single one if both bounds are. -/
def lengthTemplate (exact : Bool) : String :=
  if exact then "The " ++ attributeField ++ " must be exactly \x7bmin\x7d characters"
  else "The " ++ attributeField ++ " must be between \x7bmin\x7d and \x7bmax\x7d characters"

/-- The template that the class of a kind gives to its rules. -/
def standardTemplate : RuleKind → String
  | .sometimes | .wrapped .. => plainTemplate
  | .required => "The " ++ attributeField ++ " field is required"
  | .email => "The " ++ attributeField ++ " must be a valid email address"
  | .url => "The " ++ attributeField ++ " must be a valid URL"
  | .min _ => "The " ++ attributeField ++ " must be at least \x7bmin\x7d"
  | .max _ => "The " ++ attributeField ++ " must not exceed \x7bmax\x7d"
  | .length .. => lengthTemplate false
  | .regex _ => "The " ++ attributeField ++ " format is invalid"
  | .within _ | .outside _ => "The selected " ++ attributeField ++ " is invalid"
  | .numeric => "The " ++ attributeField ++ " must be a number"
  | .integer => "The " ++ attributeField ++ " must be an integer"
  | .alpha => "The " ++ attributeField ++ " must only contain letters"
  | .alphaNumeric => "The " ++ attributeField ++ " must only contain letters and numbers"
  | .date _ => "The " ++ attributeField ++ " is not a valid date"
  | .uuid _ => "The " ++ attributeField ++ " must be a valid UUID"
  | .json => "The " ++ attributeField ++ " must be valid JSON"
  | .array => "The " ++ attributeField ++ " must be an array"
  | .boolean => "The " ++ attributeField ++ " must be true or false"
  | .custom rule => rule.template

/-- Whether a kind makes the other rules of an attribute optional. -/
def isSometimes : RuleKind → Bool
  | .sometimes => true
  | .custom rule => rule.isSometimes
  | _ => false

end RuleKind

/-- A rule. -/
structure Rule where
  kind : RuleKind
  template : String
  /-- The name it was given; without one its class names it. -/
  givenName : Option String
  /-- Whether it lets every value pass. -/
  skip : Bool := false
  /-- Whether it lets empty values pass; any value that counts as true will do. -/
  emptyAllowed : Value := .bool false
  /-- The codes of the last check. -/
  violations : List Value := []
  /-- What the members of values are in its template. -/
  host : Template.Host := .bare

namespace Rule

/-- The rule of a kind as its class makes it. -/
def ofKind (kind : RuleKind) : Rule where
  kind
  template := kind.standardTemplate
  givenName := kind.standardName

instance : Inhabited Rule := ⟨ofKind .sometimes⟩

/-- The name of a rule. -/
def name (rule : Rule) : String :=
  match rule.kind with
  | .wrapped _ name _ => name
  | kind => rule.givenName.getD (Text.snakeCase kind.className)

/-- Records a violation code. -/
def violate (rule : Rule) (code : Value) : Rule :=
  { rule with violations := rule.violations ++ [code] }

/-- Lets every value pass, or no longer. -/
def skipping (rule : Rule) (condition : Value) : Rule := { rule with skip := condition.isTruthy }

/-- Lets empty values pass, or no longer. -/
def allowingEmpty (rule : Rule) (allowed : Value) : Rule := { rule with emptyAllowed := allowed }

/-- Whether a rule lets a value pass without a check. -/
def waives (rule : Rule) (value : Value) : Bool :=
  rule.skip || (rule.emptyAllowed.isTruthy && value.isEmpty)

end Rule

end FieldRules
