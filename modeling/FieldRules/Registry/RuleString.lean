import FieldRules.Registry.Registration

/-! # Rule strings

A rule string is rules between bars.  A rule is an identifier, and behind a colon its arguments
between commas; nothing can be escaped.  The first thing that is wrong, from the left, is
reported.  A registry keeps the strings that it has read, with the makers that their identifiers
had, and makes new rules from them each time.
-/

namespace FieldRules

open Text

namespace Token

/-- Makes the rule of a token. -/
def build (token : Token) : Task RuleId :=
  token.factory.construct token.identifier (token.arguments.map .str)

/-- The arguments behind a colon. -/
def argumentsOf : Option (List Char) → List String
  | none => []
  | some cs => (splitOn ',' cs).map String.ofList

/-- Reads the rule at a position of a rule string. -/
def read (registry : Registry) (spec : String) (position : Nat) (cs : List Char) :
    Outcome Token :=
  match strip cs with
  | [] => .error (.malformedRuleString spec .emptyRule position)
  | body =>
    let (before, after) := cut ':' body
    match strip before with
    | [] => .error (.malformedRuleString spec .missingIdentifier position)
    | name =>
      (registry.resolve (String.ofList name)).map fun factory =>
        { identifier := String.ofList name, arguments := argumentsOf after, factory }

/-- Reads the rules of a rule string from a position on. -/
def readAll (registry : Registry) (spec : String) (position : Nat) :
    List (List Char) → Outcome (List Token)
  | [] => .ok []
  | piece :: pieces => do
    let token ← read registry spec position piece
    return token :: (← readAll registry spec (position + 1) pieces)

end Token

namespace Registry

/-- The tokens of a rule string, as the entries are now. -/
def tokenize (registry : Registry) (spec : String) : Outcome (List Token) :=
  Token.readAll registry spec 0 (splitOn '|' spec.toList)

/-- Changes the registry. -/
def change (f : Registry → Registry) : Task Unit :=
  modify fun w => { w with registry := f w.registry }

/-- The tokens of a rule string: those that were kept, or new ones. -/
def tokens (spec : String) : Task (List Token) := do
  match (← get).registry.cache.get? spec with
  | some kept =>
    change fun r => { r with hits := r.hits + 1 }
    return kept
  | none =>
    change fun r => { r with misses := r.misses + 1 }
    let read ← Task.ofOutcome ((← get).registry.tokenize spec)
    change fun r => { r with cache := r.cache.put spec read }
    Task.log (.parsed spec read.length)
    return read

/-- Makes the rules of tokens in order. -/
def buildTokens : List Token → Task (List RuleId)
  | [] => return []
  | token :: rest => do
    let id ← token.build
    return id :: (← buildTokens rest)

/-- Makes the rules of a rule string. -/
def parse (spec : String) : Task (List RuleId) := do buildTokens (← tokens spec)

/-- Forgets the rule strings that were read. -/
def clearCache (registry : Registry) : Registry :=
  { registry with cache := [], hits := 0, misses := 0 }

end Registry

end FieldRules
