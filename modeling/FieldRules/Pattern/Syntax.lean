import FieldRules.Number.Power

/-! # Regular expression patterns

The syntax tree of a pattern.  Characters are held as code points, because a pattern may name
code points that no text contains.
-/

namespace FieldRules.Pattern

/-- The options of a pattern, or of a part of it. -/
structure Flags where
  /-- Letters match in either case. -/
  ignoreCase : Bool := false
  /-- The line anchors match at every line. -/
  multiline : Bool := false
  /-- The dot matches line feeds too. -/
  dotAll : Bool := false
  /-- Blanks and comments in the pattern are skipped. -/
  verbose : Bool := false
  /-- The character classes know ASCII only. -/
  ascii : Bool := false
  /-- The character classes are asked for by name to know all of Unicode. -/
  unicode : Bool := false
  /-- Repetition is refused. -/
  template : Bool := false
  deriving DecidableEq, Repr

/-- The options that a part of a pattern turns on and off. -/
structure FlagChange where
  on : Flags := {}
  off : Flags := {}
  deriving DecidableEq, Repr

namespace Flags

/-- The options of either. -/
def union (a b : Flags) : Flags where
  ignoreCase := a.ignoreCase || b.ignoreCase
  multiline := a.multiline || b.multiline
  dotAll := a.dotAll || b.dotAll
  verbose := a.verbose || b.verbose
  ascii := a.ascii || b.ascii
  unicode := a.unicode || b.unicode
  template := a.template || b.template

/-- Whether two sets of options share one. -/
def overlaps (a b : Flags) : Bool :=
  (a.ignoreCase && b.ignoreCase) || (a.multiline && b.multiline) || (a.dotAll && b.dotAll) ||
    (a.verbose && b.verbose) || (a.ascii && b.ascii) || (a.unicode && b.unicode) ||
    (a.template && b.template)

/-- The options inside a part that changes them.  Naming the reach of the character classes
replaces the reach outside. -/
def changed (flags : Flags) (change : FlagChange) : Flags :=
  let named := change.on.ascii || change.on.unicode
  { ignoreCase := (flags.ignoreCase || change.on.ignoreCase) && !change.off.ignoreCase
    multiline := (flags.multiline || change.on.multiline) && !change.off.multiline
    dotAll := (flags.dotAll || change.on.dotAll) && !change.off.dotAll
    verbose := (flags.verbose || change.on.verbose) && !change.off.verbose
    ascii := if named then change.on.ascii else flags.ascii
    unicode := if named then change.on.unicode else flags.unicode
    template := flags.template }

end Flags

/-- The named classes of characters. -/
inductive CharClass where
  | digit
  | blank
  | word
  deriving DecidableEq, Repr

/-- One item of a character set. -/
inductive SetItem where
  | code (code : Nat)
  | range (first last : Nat)
  | named (charClass : CharClass) (negated : Bool)
  deriving DecidableEq, Repr

/-- The places that an anchor tests. -/
inductive Anchor where
  | lineStart
  | lineEnd
  | textStart
  | textEnd
  | boundary
  | noBoundary
  deriving DecidableEq, Repr

/-- How a repetition chooses its number of rounds. -/
inductive Greed where
  /-- As many rounds as possible first. -/
  | greedy
  /-- As few rounds as possible first. -/
  | lazy
  /-- As many rounds as possible, none of which is taken back. -/
  | possessive
  deriving DecidableEq, Repr

/-- Where an assertion looks. -/
inductive Gaze where
  | ahead
  | behind
  deriving DecidableEq, Repr

/-- A part of a pattern. -/
inductive Node where
  | empty
  | literal (code : Nat) (negated : Bool)
  | any
  | set (negated : Bool) (items : List SetItem)
  | anchor (anchor : Anchor)
  | seq (first second : Node)
  | either (first second : Node)
  /-- A part whose match is kept under a number. -/
  | capture (index : Nat) (body : Node)
  /-- A part with options of its own. -/
  | scoped (change : FlagChange) (body : Node)
  /-- A part of which only the first match is tried. -/
  | atomic (body : Node)
  | repeated (greed : Greed) (least : Nat) (most : Option Nat) (body : Node)
  /-- The text that a group matched. -/
  | sameAs (index : Nat)
  /-- One of two parts, depending on whether a group matched. -/
  | given (index : Nat) (yes no : Node)
  | look (gaze : Gaze) (negated : Bool) (body : Node)
  deriving DecidableEq, Repr

/-- Why a text is no pattern. -/
inductive PatternFault where
  | malformed
  /-- A repetition has a bound that no repetition may have. -/
  | repetitionTooLarge
  | incompatibleFlags
  /-- A repetition's bound has more digits than a conversion may take. -/
  | tooManyDigits (count : Nat)
  deriving DecidableEq, Repr

/-- Bounds of repetitions stay below this number. -/
def repeatLimit : Nat := 4294967295

/-- Widths are not counted further than this number. -/
def widthLimit : Nat := Number.twoTo 64

/-- The least and the greatest number of characters that a part matches, given those of the
groups. -/
def Node.width (groups : Nat → Nat × Nat) : Node → Nat × Nat
  | .empty | .anchor _ | .look .. => (0, 0)
  | .literal .. | .any | .set .. => (1, 1)
  | .seq first second =>
    let (low₁, high₁) := first.width groups
    let (low₂, high₂) := second.width groups
    (min (low₁ + low₂) widthLimit, min (high₁ + high₂) widthLimit)
  | .either first second =>
    let (low₁, high₁) := first.width groups
    let (low₂, high₂) := second.width groups
    (min low₁ low₂, max high₁ high₂)
  | .capture _ body | .scoped _ body | .atomic body => body.width groups
  | .repeated _ least most body =>
    let (low, high) := body.width groups
    let most := match most with
      | some most => high * most
      | none => if high = 0 then 0 else widthLimit
    (min (low * least) widthLimit, min most widthLimit)
  | .sameAs index => groups index
  | .given _ yes no =>
    let (low₁, high₁) := yes.width groups
    let (low₂, high₂) := no.width groups
    (min low₁ low₂, max high₁ high₂)

/-- Whether every assertion that looks behind has one width. -/
def Node.looksBehindFixed (groups : Nat → Nat × Nat) : Node → Bool
  | .look gaze _ body =>
    let (low, high) := body.width groups
    (gaze = .ahead || (low = high && low ≤ repeatLimit)) && body.looksBehindFixed groups
  | .seq first second | .either first second | .given _ first second =>
    first.looksBehindFixed groups && second.looksBehindFixed groups
  | .capture _ body | .scoped _ body | .atomic body | .repeated _ _ _ body =>
    body.looksBehindFixed groups
  | .empty | .literal .. | .any | .set .. | .anchor _ | .sameAs _ => true

/-- Whether a part repeats anything. -/
def Node.hasRepetition : Node → Bool
  | .repeated .. => true
  | .seq first second | .either first second | .given _ first second =>
    first.hasRepetition || second.hasRepetition
  | .capture _ body | .scoped _ body | .atomic body | .look _ _ body => body.hasRepetition
  | .empty | .literal .. | .any | .set .. | .anchor _ | .sameAs _ => false

end FieldRules.Pattern

/-- A pattern: its text, the options it turns on for all of itself, and its tree. -/
structure FieldRules.Pattern where
  source : String
  flags : Pattern.Flags
  node : Pattern.Node
  /-- The widths of the groups, by number. -/
  groupWidths : List (Nat × Nat)
  deriving DecidableEq, Repr
