import FieldRules.Rule.Class
import FieldRules.Shelf

/-! # The rules that exist

Rules have an identity: one rule may be bound to several attributes or registered under several
names, and a check of it at one place shows at all the others.  Functions may stand for rules, and
classes and functions make them.
-/

namespace FieldRules

/-- The identity of a rule. -/
abbrev RuleId := Nat

/-- The rules that exist. -/
abbrev RuleStore := Shelf Rule

/-- What a callable gives. -/
inductive Product where
  /-- A rule that exists already. -/
  | shared (id : RuleId)
  /-- A new rule. -/
  | fresh (rule : Rule)
  | value (value : Value)
  /-- Something that is neither a rule nor a value; it counts as true. -/
  | foreign (typeName : String)

/-- A function that stands for a rule, or makes rules. -/
structure Callable where
  /-- What tells it from other functions. -/
  id : Nat
  name : String
  /-- The label under which its calls are recorded, if they are. -/
  label : Option String := none
  /-- Whether it takes exactly one argument, rather than any number. -/
  isUnary : Bool := false
  run : List Value → Outcome Product

/-- Something written where rules are expected. -/
inductive Written where
  | rule (id : RuleId)
  | ofClass (c : AnyClass)
  | callable (c : Callable)
  | value (value : Value)
  | list (items : List Written)
  | tuple (items : List Written)

/-- The name of the type of what is written. -/
def Written.typeName (rules : RuleStore) : Written → String
  | .rule id => (rules.item id).kind.className
  | .ofClass c => c.typeName
  | .callable _ => "function"
  | .value v => v.typeName
  | .list _ => "list"
  | .tuple _ => "tuple"

/-- A maker of rules that can be registered: a rule that all share, a class, or a function. -/
inductive Factory where
  | shared (id : RuleId)
  | ofClass (c : RuleClass)
  | callable (c : Callable)

/-- Whether a maker of rules is the very thing that is written. -/
def Factory.isThe (factory : Factory) (written : Written) : Bool :=
  match factory, written with
  | .shared id, .rule other => id == other
  | .ofClass c, .ofClass (.rules other) => c.name == other.name
  | .callable c, .callable other => c.id == other.id
  | _, _ => false

end FieldRules
