import FieldRules.Registry.Registration
import FieldRules.Rule.Message

/-! # Choosing messages

Messages may be overridden for an attribute as a whole, for a rule of it, and for a violation of
that rule.  The codes of a violation select the overrides of the rule and of the code; without
codes the first override that concerns the rule is taken.  If none is found, the rule's own
message is.
-/

namespace FieldRules

/-- What addresses a rule in overrides: a name, or the number of messages before it. -/
inductive RuleKey where
  | name (name : String)
  | position (count : Int)

namespace RuleKey

/-- The text of a key. -/
def text : RuleKey → String
  | .name given => given
  | .position count => toString count

/-- The key of a rule: the identifier it is registered under, else its name, else the number of
messages recorded before. -/
def ofRule (registry : Option Registry) (rules : RuleStore) (id : RuleId) (recorded : Int) :
    RuleKey :=
  match registry.bind fun r => r.identifierOf (.rule id) with
  | some identifier => .name identifier
  | none =>
    if (rules.item id).name = "" then .position recorded else .name (rules.item id).name

end RuleKey

namespace Messages

/-- The override key of a rule of an attribute. -/
def ruleAddress (label : String) (key : RuleKey) : String := label ++ "." ++ key.text

/-- Whether an override concerns an attribute as a whole or a rule of it. -/
def concerns (label address override : String) : Bool :=
  override == label || override == address || Text.beginsWith override (address ++ ".")

/-- The overrides that concern an attribute as a whole or a rule of it. -/
def candidates (overrides : Keyed Value) (label : String) (key : RuleKey) : Keyed Value :=
  overrides.filter fun entry => concerns label (ruleAddress label key) entry.1

/-- The overrides that violation codes select. -/
def selected (found : Keyed Value) (address : String) : List Value → Outcome (List Value)
  | [] => .ok []
  | code :: codes => do
    let text ← code.plain
    let chosen := [address, address ++ "." ++ text].filterMap found.get?
    return chosen ++ (← selected found address codes)

/-- The overrides for a failed rule. -/
def overriding (overrides : Keyed Value) (label : String) (key : RuleKey)
    (codes : List Value) : Outcome (List Value) :=
  let found := candidates overrides label key
  if codes.isEmpty then .ok ((found.take 1).map (·.2))
  else selected found (ruleAddress label key) codes

/-- The messages for a failed rule, in order. -/
def resolve (overrides : Keyed Value) (label : String) (key : RuleKey) (rule : Rule) :
    Outcome (List Value) := do
  match ← overriding overrides label key rule.violations with
  | [] => return [.str (← rule.message (Text.spaced label))]
  | found => return found

end Messages

end FieldRules
