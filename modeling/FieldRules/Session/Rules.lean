import FieldRules.Session.Basic

/-! # Rules of a session

Making rules and functions by recipe, checking rules, and registries of a session.
-/

namespace FieldRules.Session

/-- Gives a new rule an identity. -/
def addRule (rule : Rule) : Action RuleId := do
  let session ← get
  let (id, rules) := session.rules.add rule
  set { session with rules }
  return id

/-- The rule of an identity. -/
def ruleOf (id : RuleId) : Action Rule := return (← get).rules.item id

/-- Changes the rule of an identity. -/
def changeRule (id : RuleId) (change : Rule → Rule) : Action Unit :=
  modify fun session => { session with rules := session.rules.modify id change }

/-- Adds a function. -/
def addFunction (label : Option String) (isUnary : Bool) (run : List Value → Outcome Product) :
    Action Written := do
  let session ← get
  set { session with functions := session.functions + 1 }
  return .callable { id := session.functions, name := functionName, label, isUnary, run }

mutual

/-- Follows a recipe. -/
def follow : Recipe → Action Written
  | .held written => return written
  | .make c arguments template name emptyAllowed skip => do
    let rule ← ofOutcome (c.build arguments)
    return .rule (← addRule (rule.adjust template name emptyAllowed skip))
  | .list items => do return .list (← followAll items)
  | .tuple items => do return .tuple (← followAll items)
  | .function label isUnary run => addFunction label isUnary run
  | .giving label recipe => do
    let written ← follow recipe
    let rules := (← get).rules
    addFunction (some label) true fun _ => .ok (.ofWritten rules written)
  | .making recipe => do
    let rules := (← get).rules
    addFunction none false fun _ => recipe.product rules

/-- Follows several recipes. -/
def followAll : List Recipe → Action (List Written)
  | [] => return []
  | recipe :: rest => do
    let written ← follow recipe
    return written :: (← followAll rest)

end

/-- Checks a value by a rule. -/
def checkRule (id : RuleId) (value : Value) : Action Bool := do
  let (valid, checked) := (← ruleOf id).check value
  changeRule id fun _ => checked
  ofOutcome valid

/-- Adds a registry, with the built-in classes if they are asked for, and more entries. -/
def newRegistry (withStandard : Bool) (entries : List (Option String × Written)) :
    Action Nat := do
  let session ← get
  let (id, registries) := session.registries.add (if withStandard then .standard else {})
  set { session with registries }
  inRegistry id (Registry.extend entries)
  return id

/-- Adds a registry of the same entries as another. -/
def copyRegistry (id : Nat) : Action Nat := do
  let session ← get
  let (copied, registries) := session.registries.add (session.registries.item id).copy
  set { session with registries }
  return copied

/-- Changes a registry. -/
def changeRegistry (id : Nat) (change : Registry → Registry) : Action Unit :=
  modify fun session => { session with registries := session.registries.modify id change }

/-- The key that addresses a rule in overrides. -/
def ruleKey (resolver : Resolver) (id : RuleId) (recorded : Int) : Action RuleKey := do
  let session ← get
  return .ofRule (resolver.registry.map session.registries.item) session.rules id recorded

/-- The messages for a failed rule. -/
def resolveMessages (resolver : Resolver) (name : String) (id : RuleId) (recorded : Int) :
    Action (List Value) := do
  let key ← ruleKey resolver id recorded
  ofOutcome (Messages.resolve resolver.overrides name key (← ruleOf id))

end FieldRules.Session
