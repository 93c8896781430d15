import FieldRules.Pattern.Matcher

/-! # Replacing matches

The matches of a pattern in a text are found from the left, each search beginning where the last
match ended, and every one of them gives way to a replacement.  A match that takes nothing may not
stand where the last one, which took nothing either, has ended.
-/

namespace FieldRules.Pattern

/-- One piece of a replacement. -/
inductive Insert where
  | literal (cs : List Char)
  /-- What a group matched; nothing if it has not matched. -/
  | group (index : Nat)
  deriving DecidableEq, Repr

/-- The first two groups with something between them. -/
def Insert.around (mark : List Char) : List Insert := [.group 1, .literal mark, .group 2]

/-- The text of a piece. -/
def Insert.expand (text : Array Char) (cursor : Cursor) : Insert → List Char
  | .literal cs => cs
  | .group index =>
    match cursor.captured? index with
    | some (first, stop) => (text.toList.drop first).take (stop - first)
    | none => []

/-- The first match of a pattern at a position, which takes something there if it is asked to. -/
def matchAt? (pattern : Pattern) (text : Array Char) (moves : Bool) (position : Nat) :
    Option Cursor :=
  let groups (index : Nat) : Nat × Nat := (pattern.groupWidths[index - 1]?).getD (0, 0)
  pattern.node.matchThen text groups pattern.flags { position } fun cursor =>
    if moves && cursor.position == position then none else some cursor

/-- The first match at a position or at one of the `room` positions behind it, with the position
where it begins. -/
def search? (pattern : Pattern) (text : Array Char) (moves : Bool) (position : Nat) :
    (room : Nat) → Option (Nat × Cursor)
  | 0 => (pattern.matchAt? text moves position).map fun cursor => (position, cursor)
  | room + 1 =>
    match pattern.matchAt? text moves position with
    | some cursor => some (position, cursor)
    | none => pattern.search? text false (position + 1) room

/-- The text from a position on, with replacements for at most `rounds` matches. -/
def replaceFrom (pattern : Pattern) (inserts : List Insert) (text : Array Char) (moves : Bool)
    (position : Nat) : (rounds : Nat) → List Char
  | 0 => text.toList.drop position
  | rounds + 1 =>
    match pattern.search? text moves position (text.size - position) with
    | none => text.toList.drop position
    | some (first, cursor) =>
      (text.toList.drop position).take (first - position) ++
        inserts.flatMap (·.expand text cursor) ++
        pattern.replaceFrom inserts text (cursor.position == first) cursor.position rounds

/-- A text with replacements for all matches.  Of two matches that follow each other one takes a
character at least, which bounds their number. -/
def replaceAll (pattern : Pattern) (inserts : List Insert) (cs : List Char) : List Char :=
  pattern.replaceFrom inserts cs.toArray false 0 (2 * cs.length + 2)

end FieldRules.Pattern
