import FieldRules.Pattern.Folding
import FieldRules.Pattern.Syntax
import FieldRules.Text.Blank
import FieldRules.Text.Numeral

/-! # Matching patterns

A match is looked for from the left with backtracking.  The match of a part is followed by a
continuation, and the first way to match the part for which the continuation succeeds is taken.
A repetition allows one round that matches nothing, and then stops, so the text that is left
bounds the number of rounds.
-/

namespace FieldRules.Pattern

open FieldRules.Text

/-- Where a match has come to: the position, and where each group began and ended last. -/
structure Cursor where
  position : Nat
  starts : List (Nat × Nat) := []
  ends : List (Nat × Nat) := []
  deriving DecidableEq, Repr

namespace Cursor

/-- The place of a group, if it has matched. -/
def captured? (cursor : Cursor) (index : Nat) : Option (Nat × Nat) :=
  match cursor.starts.lookup index, cursor.ends.lookup index with
  | some first, some stop => if first ≤ stop then some (first, stop) else none
  | _, _ => none

/-- The cursor moved by a number of characters. -/
def advanced (cursor : Cursor) (count : Nat) : Cursor :=
  { cursor with position := cursor.position + count }

end Cursor

/-- The rest of a match. -/
abbrev Continuation := Cursor → Option Cursor

/-- Whether a character belongs to a named class. -/
def CharClass.holds (ascii : Bool) (code : Nat) : CharClass → Bool
  | .digit => if ascii then 48 ≤ code && code ≤ 57 else isDigit (Char.ofNat code)
  | .blank => if ascii then isAsciiBlank (Char.ofNat code) else isBlank (Char.ofNat code)
  | .word =>
    code == 95 ||
      if ascii then code < 128 && isAlphanumeric (Char.ofNat code)
      else isAlphanumeric (Char.ofNat code)

/-- Whether a code point is one that an item of a set stands for. -/
def SetItem.holds (flags : Flags) (code : Nat) : SetItem → Bool
  | .named charClass negated => charClass.holds flags.ascii code != negated
  | .code item =>
    if flags.ignoreCase then
      let small := lowerCode flags.ascii item
      if 0xFFFF < small then code == item
      else code == small || (!flags.ascii && (twins small).contains code)
    else code == item
  | .range first last =>
    let covers (code : Nat) : Bool := first ≤ code && code ≤ last
    covers code || (flags.ignoreCase &&
      ((variants flags.ascii code).any covers ||
        (!flags.ascii && 0xFFFF < last && covers (upperCode code))))

/-- Whether a character belongs to a set. -/
def inSet (flags : Flags) (negated : Bool) (items : List SetItem) (c : Char) : Bool :=
  let code := if flags.ignoreCase then lowerCode flags.ascii c.toNat else c.toNat
  items.any (·.holds flags code) != negated

/-- Whether a character is the given one. -/
def isLiteral (flags : Flags) (code : Nat) (negated : Bool) (c : Char) : Bool :=
  let same :=
    if flags.ignoreCase && isCasedCode flags.ascii code then
      let small := lowerCode flags.ascii code
      let found := lowerCode flags.ascii c.toNat
      found == small || (!flags.ascii && (twins small).contains found)
    else c.toNat == code
  same != negated

/-- The test that a part makes if it matches exactly one character. -/
def Node.charTest? (flags : Flags) : Node → Option (Char → Bool)
  | .literal code negated => some (isLiteral flags code negated)
  | .any => some fun c => flags.dotAll || c != '\n'
  | .set negated items => some (inSet flags negated items)
  | .scoped change body => body.charTest? (flags.changed change)
  | _ => none

/-- Whether an anchor holds at a position. -/
def Anchor.holds (text : Array Char) (flags : Flags) (position : Nat) (anchor : Anchor) : Bool :=
  let isWordAt (index : Nat) : Bool :=
    (text[index]?.map fun c => CharClass.holds flags.ascii c.toNat .word).getD false
  let beforeWord := position != 0 && isWordAt (position - 1)
  match anchor with
  | .textStart => position == 0
  | .textEnd => position == text.size
  | .lineStart =>
    position == 0 || (flags.multiline && text[position - 1]? == some '\n')
  | .lineEnd =>
    position == text.size || (position + 1 == text.size && text[position]? == some '\n') ||
      (flags.multiline && text[position]? == some '\n')
  | .boundary => text.size != 0 && beforeWord != isWordAt position
  | .noBoundary => text.size != 0 && beforeWord == isWordAt position

/-- How many characters from a position on pass a test, at most `most`. -/
def runLength (text : Array Char) (test : Char → Bool) (position : Nat) : (most : Nat) → Nat
  | 0 => 0
  | most + 1 =>
    match text[position]? with
    | some c => if test c then runLength text test (position + 1) most + 1 else 0
    | none => 0

/-- Tries the continuation after `count` characters, then after fewer, down to `least`. -/
def tryDown (cursor : Cursor) (least : Nat) (k : Continuation) : (count : Nat) → Option Cursor
  | 0 => if least = 0 then k cursor else none
  | count + 1 =>
    if count + 1 < least then none
    else match k (cursor.advanced (count + 1)) with
      | some result => some result
      | none => tryDown cursor least k count

/-- Tries the continuation after `count` characters, then after more, `more` at most. -/
def tryUp (cursor : Cursor) (count : Nat) (k : Continuation) : (more : Nat) → Option Cursor
  | 0 => k (cursor.advanced count)
  | more + 1 =>
    match k (cursor.advanced count) with
    | some result => some result
    | none => tryUp cursor (count + 1) k more

/-- Whether a further round is allowed: the bound is not reached and the last round, which
began at `last`, moved on. -/
def roundAllowed (most : Option Nat) (count : Nat) (last : Option Nat) (cursor : Cursor) : Bool :=
  (most.map fun bound => decide (count < bound)).getD true && last != some cursor.position

/-- Rounds of a repetition, as many as possible first. -/
def greedyRounds (body : Cursor → Continuation → Option Cursor) (least : Nat) (most : Option Nat)
    (k : Continuation) (count : Nat) (last : Option Nat) (cursor : Cursor) :
    (fuel : Nat) → Option Cursor
  | 0 => none
  | fuel + 1 =>
    if count < least then
      body cursor fun next => greedyRounds body least most k (count + 1) last next fuel
    else if roundAllowed most count last cursor then
      match body cursor fun next =>
          greedyRounds body least most k (count + 1) (some cursor.position) next fuel with
      | some result => some result
      | none => k cursor
    else k cursor

/-- Rounds of a repetition, as few as possible first. -/
def lazyRounds (body : Cursor → Continuation → Option Cursor) (least : Nat) (most : Option Nat)
    (k : Continuation) (count : Nat) (last : Option Nat) (cursor : Cursor) :
    (fuel : Nat) → Option Cursor
  | 0 => none
  | fuel + 1 =>
    if count < least then
      body cursor fun next => lazyRounds body least most k (count + 1) last next fuel
    else match k cursor with
      | some result => some result
      | none =>
        if roundAllowed most count last cursor then
          body cursor fun next =>
            lazyRounds body least most k (count + 1) (some cursor.position) next fuel
        else none

/-- Rounds of a repetition that are not taken back: where the last possible one ends. -/
def possessiveRounds (body : Cursor → Continuation → Option Cursor) (least : Nat)
    (most : Option Nat) (count : Nat) (last : Option Nat) (cursor : Cursor) :
    (fuel : Nat) → Option Cursor
  | 0 => none
  | fuel + 1 =>
    if count < least then
      (body cursor some).bind fun next =>
        possessiveRounds body least most (count + 1) last next fuel
    else if roundAllowed most count last cursor then
      match body cursor some with
      | some next =>
        possessiveRounds body least most (count + 1) (some cursor.position) next fuel
      | none => some cursor
    else some cursor

/-- Whether two stretches of a text are the same, in either case if so asked. -/
def sameStretch (text : Array Char) (flags : Flags) (first second : Nat) : (count : Nat) → Bool
  | 0 => true
  | count + 1 =>
    match text[first]?, text[second]? with
    | some a, some b =>
      (if flags.ignoreCase then lowerCode flags.ascii a.toNat == lowerCode flags.ascii b.toNat
       else a == b) && sameStretch text flags (first + 1) (second + 1) count
    | _, _ => false

/-- A repetition of single characters that pass a test. -/
def repeatedChar (text : Array Char) (greed : Greed) (least : Nat) (most : Option Nat)
    (test : Char → Bool) (cursor : Cursor) (k : Continuation) : Option Cursor :=
  let room := text.size - cursor.position
  let count := runLength text test cursor.position (min room (most.getD room))
  if count < least then none
  else match greed with
    | .greedy => tryDown cursor least k count
    | .lazy => tryUp cursor least k (count - least)
    | .possessive => k (cursor.advanced count)

/-- Matches a part and goes on with the continuation. -/
def Node.matchThen (text : Array Char) (groups : Nat → Nat × Nat) (flags : Flags) :
    Node → Cursor → Continuation → Option Cursor
  | .empty, cursor, k => k cursor
  | .literal code negated, cursor, k =>
    match text[cursor.position]? with
    | some c => if isLiteral flags code negated c then k (cursor.advanced 1) else none
    | none => none
  | .any, cursor, k =>
    match text[cursor.position]? with
    | some c => if flags.dotAll || c != '\n' then k (cursor.advanced 1) else none
    | none => none
  | .set negated items, cursor, k =>
    match text[cursor.position]? with
    | some c => if inSet flags negated items c then k (cursor.advanced 1) else none
    | none => none
  | .anchor place, cursor, k =>
    if place.holds text flags cursor.position then k cursor else none
  | .seq first second, cursor, k =>
    first.matchThen text groups flags cursor fun next => second.matchThen text groups flags next k
  | .either first second, cursor, k =>
    match first.matchThen text groups flags cursor k with
    | some result => some result
    | none => second.matchThen text groups flags cursor k
  | .capture index body, cursor, k =>
    let opened := { cursor with starts := (index, cursor.position) :: cursor.starts }
    body.matchThen text groups flags opened fun next =>
      k { next with ends := (index, next.position) :: next.ends }
  | .scoped change body, cursor, k =>
    body.matchThen text groups (flags.changed change) cursor k
  | .atomic body, cursor, k => (body.matchThen text groups flags cursor some).bind k
  | .repeated greed least most body, cursor, k =>
    match body.charTest? flags with
    | some test => repeatedChar text greed least most test cursor k
    | none =>
      let fuel := least + (text.size - cursor.position) + 2
      let step := body.matchThen text groups flags
      match greed with
      | .greedy => greedyRounds step least most k 0 none cursor fuel
      | .lazy => lazyRounds step least most k 0 none cursor fuel
      | .possessive => (possessiveRounds step least most 0 none cursor fuel).bind k
  | .sameAs index, cursor, k =>
    match cursor.captured? index with
    | some (first, stop) =>
      if sameStretch text flags first cursor.position (stop - first) then
        k (cursor.advanced (stop - first))
      else none
    | none => none
  | .given index yes no, cursor, k =>
    if (cursor.captured? index).isSome then yes.matchThen text groups flags cursor k
    else no.matchThen text groups flags cursor k
  | .look gaze negated body, cursor, k =>
    let back := match gaze with
      | .ahead => 0
      | .behind => (body.width groups).1
    let found :=
      if cursor.position < back then none
      else
        body.matchThen text groups flags { cursor with position := cursor.position - back } some
    match negated, found with
    | false, some next => k { next with position := cursor.position }
    | true, none => k cursor
    | _, _ => none

end FieldRules.Pattern

namespace FieldRules.Pattern

/-- The first match of a pattern at the start of a text. -/
def matchStart? (pattern : Pattern) (flags : Flags) (text : List Char) : Option Cursor :=
  let groups (index : Nat) : Nat × Nat := (pattern.groupWidths[index - 1]?).getD (0, 0)
  pattern.node.matchThen text.toArray groups flags { position := 0 } some

/-- Whether a pattern matches at the start of a text. -/
def matchesStart (pattern : Pattern) (text : String) : Bool :=
  (pattern.matchStart? pattern.flags text.toList).isSome

end FieldRules.Pattern
