import FieldRules.Pattern.Reader
import FieldRules.Rule.Basic
import FieldRules.Value.Convert

/-! # Classes of rules

A class makes rules from arguments.  The built-in classes read bounds from texts, so that rules
can be made from rule strings; arguments that do not fit are faults.
-/

namespace FieldRules

/-- The built-in classes, in the order in which registries list them. -/
inductive BuiltIn where
  | sometimes | required | email | url | min | max | length
  /-- Patterns, in which characters may be named as in a table. -/
  | regex (characters : Text.CharacterNames := .known)
  | within | outside | numeric | integer | alpha | alphaNumeric | date | uuid | json | array
  | boolean
  deriving DecidableEq, Repr

namespace BuiltIn

/-- All built-in classes. -/
def all : List BuiltIn :=
  [.sometimes, .required, .email, .url, .min, .max, .length, .regex, .within, .outside, .numeric,
    .integer, .alpha, .alphaNumeric, .date, .uuid, .json, .array, .boolean]

/-- The identifier under which registries list a class. -/
def identifier : BuiltIn → String
  | .sometimes => "sometimes"
  | .required => "required"
  | .email => "email"
  | .url => "url"
  | .min => "min"
  | .max => "max"
  | .length => "length"
  | .regex _ => "regex"
  | .within => "in"
  | .outside => "not_in"
  | .numeric => "numeric"
  | .integer => "integer"
  | .alpha => "alpha"
  | .alphaNumeric => "alpha_numeric"
  | .date => "date"
  | .uuid => "uuid"
  | .json => "json"
  | .array => "array"
  | .boolean => "boolean"

/-- The name of a class. -/
def className : BuiltIn → String
  | .sometimes => "Sometimes"
  | .required => "Required"
  | .email => "Email"
  | .url => "Url"
  | .min => "Min"
  | .max => "Max"
  | .length => "Length"
  | .regex _ => "Regex"
  | .within => "In"
  | .outside => "NotIn"
  | .numeric => "Numeric"
  | .integer => "Integer"
  | .alpha => "Alpha"
  | .alphaNumeric => "AlphaNumeric"
  | .date => "Date"
  | .uuid => "Uuid"
  | .json => "Json"
  | .array => "Array"
  | .boolean => "Boolean"

end BuiltIn

/-- The constructor of a class, as calls of it are reported. -/
def constructorName (className : String) : String := className ++ ".__init__"

/-- Refuses a number of arguments that does not fit the parameters of a function, of which
`implicit` more are given without being counted. -/
def checkArguments (callee : String) (implicit : Nat) (required : List String) (optional : Nat)
    (count : Nat) : Outcome Unit :=
  let least := required.length + implicit
  if required.length + optional < count then
    .error (.call (.tooMany callee least (least + optional) (count + implicit)))
  else match required.drop count with
    | [] => .ok ()
    | parameter :: _ => .error (.call (.missing callee parameter))

/-- The items that a value gives one after the other. -/
def Value.iterate : Value → Outcome (List Value)
  | .list items | .tuple items | .set items => .ok items
  | .dict entries => .ok (entries.map (·.1))
  | .str s => .ok (s.toList.map fun c => .str (String.ofList [c]))
  | .bytes octets => .ok (octets.map fun octet => .int octet.toNat)
  | value => .error (.notIterable value.qualifiedTypeName)

namespace Rule

/-- The rule that stands for the outcome of a callable rule.  A dictionary says what its rule is
like; any other value is valid if it counts as true. -/
def ofAnswer (answer : Value) : Outcome Rule :=
  match answer with
  | .dict entries => do
    let entry (key : String) := Value.lookup? (.str key) entries
    let holds (key : String) : Bool := ((entry key).map Value.isTruthy).getD false
    let name ← match entry "name" with
      | some given => if given.isTruthy then given.plain else pure ""
      | none => pure ""
    let codes ← ((entry "violations").getD (.tuple [])).iterate
    let codes ← codes.mapM Value.plain
    return { ofKind (.wrapped (holds "valid") name codes) with
      emptyAllowed := .bool (holds "empty_allowed")
      skip := holds "skip" }
  | answer => .ok (ofKind (.wrapped answer.isTruthy "" []))

/-- The rule of a length; without a greatest length it is a single one. -/
def ofLength (least : Value) (most : Option Value) : Outcome Rule := do
  let least ← least.toInteger
  match most with
  | none | some .none =>
    return { ofKind (.length least least) with template := RuleKind.lengthTemplate true }
  | some most => return ofKind (.length least (← most.toInteger))

/-- The rule of a pattern. -/
def ofPattern (characters : Text.CharacterNames) : Value → Outcome Rule
  | .str source =>
    match Pattern.read source characters with
    | .ok pattern => .ok (ofKind (.regex (.pattern pattern)))
    | .error fault => .error (.pattern fault)
  | value => .ok (ofKind (.regex (.other value)))

end Rule

namespace BuiltIn

/-- Checks the number of arguments of a class. -/
def checkCount (c : BuiltIn) (required : List String) (optional : Nat) (arguments : List Value) :
    Outcome Unit :=
  checkArguments (constructorName c.className) 1 required optional arguments.length

/-- Makes a rule of a class without parameters. -/
def buildPlain (c : BuiltIn) (kind : RuleKind) (arguments : List Value) : Outcome Rule := do
  c.checkCount [] 0 arguments
  return .ofKind kind

/-- Makes a rule from arguments. -/
def build (c : BuiltIn) (arguments : List Value) : Outcome Rule :=
  let first := arguments.headD .none
  match c with
  | .sometimes => c.buildPlain .sometimes arguments
  | .required => c.buildPlain .required arguments
  | .email => c.buildPlain .email arguments
  | .url => c.buildPlain .url arguments
  | .numeric => c.buildPlain .numeric arguments
  | .integer => c.buildPlain .integer arguments
  | .alpha => c.buildPlain .alpha arguments
  | .alphaNumeric => c.buildPlain .alphaNumeric arguments
  | .json => c.buildPlain .json arguments
  | .array => c.buildPlain .array arguments
  | .boolean => c.buildPlain .boolean arguments
  | .within => .ok (.ofKind (.within arguments))
  | .outside => .ok (.ofKind (.outside arguments))
  | .min => do
    c.checkCount ["minimum"] 0 arguments
    return .ofKind (.min (← first.toBound))
  | .max => do
    c.checkCount ["maximum"] 0 arguments
    return .ofKind (.max (← first.toBound))
  | .length => do
    c.checkCount ["min_length"] 1 arguments
    Rule.ofLength first arguments[1]?
  | .regex characters => do
    c.checkCount ["pattern"] 0 arguments
    Rule.ofPattern characters first
  | .date => do
    c.checkCount [] 1 arguments
    return .ofKind (.date (arguments.headD (.str "%Y-%m-%d")))
  | .uuid => do
    c.checkCount [] 1 arguments
    match first with
    | .none => return .ofKind (.uuid none)
    | version => return .ofKind (.uuid (some (← version.toInteger)))

end BuiltIn

/-- A class of rules that are not built in. -/
structure CustomClass where
  name : String
  build : List Value → Outcome CustomRule

/-- A class that makes rules. -/
inductive RuleClass where
  | builtIn (c : BuiltIn)
  /-- The class of the outcomes of callable rules. -/
  | wrapper
  | custom (c : CustomClass)

namespace RuleClass

/-- The name of a class. -/
def name : RuleClass → String
  | .builtIn c => c.className
  | .wrapper => "CallableRuleWrapper"
  | .custom c => c.name

/-- Makes a rule from arguments. -/
def build : RuleClass → List Value → Outcome Rule
  | .builtIn c, arguments => c.build arguments
  | .wrapper, arguments => do
    checkArguments (constructorName "CallableRuleWrapper") 1 ["result"] 0 arguments.length
    Rule.ofAnswer (arguments.headD .none)
  | .custom c, arguments => (c.build arguments).map fun rule => .ofKind (.custom rule)

end RuleClass

/-- A class, whether it makes rules or not. -/
inductive AnyClass where
  | rules (c : RuleClass)
  /-- A class of rules that leaves the check open. -/
  | abstract (name : String)
  | foreign (name : String)

namespace AnyClass

/-- The name of a class. -/
def name : AnyClass → String
  | .rules c => c.name
  | .abstract name | .foreign name => name

/-- The name of the type of a class. -/
def typeName : AnyClass → String
  | .foreign _ => "type"
  | _ => "ABCMeta"

/-- Makes a rule from arguments; a class that leaves its check open makes none. -/
def build : AnyClass → List Value → Outcome Rule
  | .rules c, arguments => c.build arguments
  | .abstract name, arguments =>
    .error (.call (if arguments.isEmpty then .abstract name else .none name))
  | .foreign name, _ => .error (.call (.none name))

end AnyClass

end FieldRules
