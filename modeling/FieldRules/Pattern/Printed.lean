import FieldRules.Fault

/-! # The printed form of patterns

A pattern is printed with its text, of which the quoted form is cut at 200 characters, and with
the options that it turns on for all of itself.
-/

namespace FieldRules.Pattern

/-- The names of the options that are on. -/
def Flags.names (flags : Flags) : List String :=
  [(flags.template, "re.TEMPLATE"), (flags.ignoreCase, "re.IGNORECASE"),
    (flags.multiline, "re.MULTILINE"), (flags.dotAll, "re.DOTALL"), (flags.verbose, "re.VERBOSE"),
    (flags.ascii, "re.ASCII")].filterMap fun (on, name) => if on then some name else none

/-- The printed form of a pattern. -/
def printed (pattern : Pattern) : String :=
  let source := shortened 200 (Text.quoted pattern.source)
  let options := pattern.flags.names
  "re.compile(" ++ source ++
    (if options.isEmpty then "" else ", " ++ Text.joinWith "|" options) ++ ")"

/-- Patterns are the same if their texts and options are; asking for all of Unicode by name makes
no difference. -/
def same (a b : Pattern) : Bool :=
  a.source == b.source &&
    decide ({ a.flags with unicode := false } = { b.flags with unicode := false })

end FieldRules.Pattern
