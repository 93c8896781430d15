import FieldRules.Rule.Store
import FieldRules.Value.Order

/-! # Recipes

A recipe says how to come by something that is written where rules are expected: it names
something that is there already, has a class make a rule and adjusts it, or describes a function.
-/

namespace FieldRules

/-- A recipe. -/
inductive Recipe where
  | held (written : Written)
  /-- A rule that a class makes, with a template, a name and marks of its own. -/
  | make (c : AnyClass) (arguments : List Value) (template : Option String)
      (name : Option (Option String)) (emptyAllowed skip : Option Value)
  | list (items : List Recipe)
  | tuple (items : List Recipe)
  | function (label : Option String) (isUnary : Bool) (run : List Value → Outcome Product)
  /-- A function that gives the same thing each time. -/
  | giving (label : String) (recipe : Recipe)
  /-- A function that makes the thing anew each time. -/
  | making (recipe : Recipe)

/-- The name of functions. -/
def functionName : String := "factory"

/-- What a function gives that gives what is written. -/
def Product.ofWritten (rules : RuleStore) : Written → Product
  | .rule id => .shared id
  | .value v => .value v
  | .list [] => .value (.list [])
  | .tuple [] => .value (.tuple [])
  | written => .foreign (written.typeName rules)

/-- Adjusts a new rule. -/
def Rule.adjust (rule : Rule) (template : Option String) (name : Option (Option String))
    (emptyAllowed skip : Option Value) : Rule :=
  let rule := { rule with
    template := template.getD rule.template
    givenName := name.getD rule.givenName
    emptyAllowed := emptyAllowed.getD rule.emptyAllowed }
  match skip with
  | some condition => rule.skipping condition
  | none => rule

namespace Recipe

mutual

/-- What a function gives that follows a recipe each time it is called. -/
def product (rules : RuleStore) : Recipe → Outcome Product
  | .held written => .ok (.ofWritten rules written)
  | .make c arguments template name emptyAllowed skip =>
    (c.build arguments).map fun rule => .fresh (rule.adjust template name emptyAllowed skip)
  | .list items =>
    (products rules items).map fun made =>
      if made.isEmpty then .value (.list []) else .foreign "list"
  | .tuple items =>
    (products rules items).map fun made =>
      if made.isEmpty then .value (.tuple []) else .foreign "tuple"
  | .function .. | .giving .. | .making _ => .ok (.foreign "function")

/-- What several recipes give. -/
def products (rules : RuleStore) : List Recipe → Outcome (List Product)
  | [] => .ok []
  | recipe :: rest => do
    let made ← product rules recipe
    return made :: (← products rules rest)

end

end Recipe

/-- Gives its value whatever it is called on. -/
def alwaysGives (value : Value) (_ : List Value) : Outcome Product := .ok (.value value)

/-- Gives what it is called on. -/
def givesArgument (arguments : List Value) : Outcome Product :=
  .ok (.value (arguments.headD .none))

/-- Tells whether what it is called on is greater than a value. -/
def isAbove (bound : Value) (arguments : List Value) : Outcome Product :=
  ((arguments.headD .none).holds .greater bound).map fun above => .value (.bool above)

/-- Always faults. -/
def alwaysFaults (fault : Fault) (_ : List Value) : Outcome Product := .error fault

end FieldRules
