import FieldRules.Pattern.Printed
import FieldRules.Rule.Store

/-! # When rules are the same

A rule is always the same as itself.  Two rules of one class are the same when their fields are,
whatever their templates, names and marks; rules that hold a list of values, wrapped results and
rules of most custom classes are each of their own.
-/

namespace FieldRules

namespace PatternSource

/-- Whether the patterns of two rules are the same. -/
def same : PatternSource → PatternSource → Bool
  | .pattern a, .pattern b => a.same b
  | .other a, .other b => Value.same a b
  | _, _ => false

end PatternSource

namespace RuleKind

/-- Whether two kinds, of different rules, are the same. -/
def same : RuleKind → RuleKind → Bool
  | .min a, .min b => a.same b
  | .max a, .max b => a.same b
  | .length a b, .length c d => a == c && b == d
  | .regex a, .regex b => a.same b
  | .date a, .date b => Value.same a b
  | .uuid a, .uuid b => a == b
  | .within _, .within _ | .outside _, .outside _ | .wrapped .., .wrapped .. => false
  | .custom a, .custom b =>
    a.className == b.className &&
      match a.fields, b.fields with
      | some xs, some ys => Value.sameItems xs ys
      | _, _ => false
  | .custom _, _ | _, .custom _ => false
  | a, b => a.className == b.className

end RuleKind

namespace Written

/-- Whether two things that are written are one. -/
def isThe : Written → Written → Bool
  | .rule a, .rule b => a == b
  | .callable a, .callable b => a.id == b.id
  | .ofClass a, .ofClass b => a.name == b.name
  | _, _ => false

/-- Whether two things that are written are one, or rules that are the same. -/
def same (rules : RuleStore) (a b : Written) : Bool :=
  a.isThe b ||
    match a, b with
    | .rule x, .rule y => (rules.item x).kind.same (rules.item y).kind
    | _, _ => false

end Written

end FieldRules
