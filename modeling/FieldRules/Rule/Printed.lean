import FieldRules.Pattern.Printed
import FieldRules.Rule.Basic

/-! # The printed form of rules

A rule is printed as its class with the names and values of its fields.
-/

namespace FieldRules

/-- A class with its fields. -/
def fieldsText (className : String) (fields : List (String × String)) : String :=
  className ++ "(" ++ Text.joinWith ", " (fields.map fun (name, text) => name ++ "=" ++ text) ++ ")"

namespace PatternSource

/-- The printed form of the pattern of a rule. -/
def print : PatternSource → Outcome String
  | .pattern p => .ok p.printed
  | .other value => value.print

end PatternSource

namespace RuleKind

/-- A class with one value. -/
def printField (className name : String) (value : Value) : Outcome String := do
  return fieldsText className [(name, ← value.print)]

/-- The printed form of a rule of a kind. -/
def print : RuleKind → Outcome String
  | .min bound => printField "Min" "minimum" (.ofNumber bound)
  | .max bound => printField "Max" "maximum" (.ofNumber bound)
  | .length least most => do
    let leastText ← (Value.int least).print
    return fieldsText "Length" [("min_length", leastText), ("max_length", ← (Value.int most).print)]
  | .regex source => do return fieldsText "Regex" [("pattern", ← source.print)]
  | .within allowed => printField "In" "allowed" (.list allowed)
  | .outside disallowed => printField "NotIn" "disallowed" (.list disallowed)
  | .date format => printField "Date" "format" format
  | .uuid version => printField "Uuid" "version" ((version.map Value.int).getD .none)
  | .wrapped valid name _ =>
    .ok (fieldsText "CallableRuleWrapper"
      [("valid", if valid then "True" else "False"), ("name", Text.quoted name)])
  | .custom rule =>
    match rule.printed? with
    | some text => .ok text
    | none => .error .unprintable
  | kind => .ok (fieldsText kind.className [])

end RuleKind

end FieldRules
