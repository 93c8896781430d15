import FieldRules.Number.Literal
import FieldRules.Pattern.Syntax
import FieldRules.Text.CharacterName
import FieldRules.Text.Identifier

/-! # Reading patterns

A pattern is read from the left.  A token is a character or a backslash with the character
after it.  The state holds the tokens that are left, the groups opened so far, what later parts may
refer to, and the table in which characters are found by their names.
-/

namespace FieldRules.Pattern

open FieldRules.Text FieldRules.Number

/-- A token of a pattern. -/
inductive Token where
  | char (c : Char)
  | escape (c : Char)
  /-- A backslash at the end of the text. -/
  | dangling
  deriving DecidableEq, Repr

/-- The tokens of a text. -/
def tokens : List Char → List Token
  | '\\' :: c :: rest => .escape c :: tokens rest
  | ['\\'] => [.dangling]
  | c :: rest => .char c :: tokens rest
  | [] => []

/-- What has been read of a pattern. -/
structure ReadState where
  rest : List Token
  flags : Flags := {}
  /-- The number of groups opened. -/
  groups : Nat := 0
  names : List (String × Nat) := []
  /-- The widths of the groups that are closed. -/
  widths : List (Nat × (Nat × Nat)) := []
  /-- The number of groups opened when the outermost look behind began. -/
  behindGroups : Option Nat := none
  /-- The groups that conditions refer to. -/
  conditions : List Nat := []
  /-- The names of characters. -/
  characters : CharacterNames := .known

/-- A step of reading. -/
abbrev Reading := StateT ReadState (Except PatternFault)

namespace Reading

/-- The next token, left in place. -/
def peek : Reading (Option Token) := return (← get).rest.head?

/-- Refuses to come upon a lone backslash. -/
def checkNext : Reading Unit := do
  if (← peek) = some .dangling then throw .malformed

/-- Drops the next token. -/
def skip : Reading Unit := do
  modify fun s => { s with rest := s.rest.tail }
  checkNext

/-- Takes the next token, if any. -/
def take : Reading (Option Token) := do
  let token ← peek
  skip
  return token

/-- Takes the next token if it is the given character. -/
def accept (c : Char) : Reading Bool := do
  if (← peek) = some (.char c) then
    skip
    return true
  else return false

/-- Takes the given character. -/
def expect (c : Char) : Reading Unit := do
  unless ← accept c do throw .malformed

/-- Takes characters of a class from the front, at most `most`. -/
def takeWhile (p : Char → Bool) : (most : Nat) → Reading (List Char)
  | 0 => return []
  | most + 1 => do
    match ← peek with
    | some (.char c) =>
      if p c then
        skip
        return c :: (← takeWhile p most)
      else return []
    | _ => return []

/-- The number of tokens left. -/
def remaining : Reading Nat := return (← get).rest.length

/-- Takes a nonempty name up to a closing character. -/
def nameUntil (close : Char) : (fuel : Nat) → Reading (List Char)
  | 0 => throw .malformed
  | fuel + 1 => do
    match ← take with
    | none | some .dangling => throw .malformed
    | some (.char c) =>
      if c = close then return [] else return c :: (← nameUntil close fuel)
    | some (.escape c) => return '\\' :: c :: (← nameUntil close fuel)

/-- Takes a nonempty name up to a closing character. -/
def name (close : Char) : Reading (List Char) := do
  let cs ← nameUntil close ((← remaining) + 1)
  if cs.isEmpty then throw .malformed
  return cs

/-- Opens a group and gives its number. -/
def openGroup (name : Option String) : Reading Nat := do
  let s ← get
  let index := s.groups + 1
  match name with
  | none => set { s with groups := index }
  | some name =>
    if (s.names.lookup name).isSome then throw .malformed
    set { s with groups := index, names := (name, index) :: s.names }
  return index

/-- The widths of groups that are not known count as none. -/
def widthOf (widths : List (Nat × (Nat × Nat))) (index : Nat) : Nat × Nat :=
  (widths.lookup index).getD (0, 0)

/-- Closes a group. -/
def closeGroup (index : Nat) (body : Node) : Reading Unit :=
  modify fun s =>
    { s with widths := (index, body.width (widthOf s.widths)) :: s.widths }

/-- Refuses a reference to a group that is still open, and inside a look behind one to a group
opened there. -/
def checkReach (index : Nat) : Reading Unit := do
  let s ← get
  match s.behindGroups with
  | none => return
  | some outside =>
    if (s.widths.lookup index).isNone || outside < index then throw .malformed

/-- A reference to a closed group. -/
def reference (index : Nat) : Reading Node := do
  if ((← get).widths.lookup index).isNone then throw .malformed
  checkReach index
  return .sameAs index

end Reading

open Reading

/-- The value of digits in a base. -/
def codeOf (base : Nat) (digits : List Char) : Nat :=
  digits.foldl (fun sum c => base * sum +
    (if isAsciiDigit c then c.toNat - 48 else (c.toLower.toNat - 87))) 0

/-- A hexadecimal digit of either case. -/
def isHexDigit (c : Char) : Bool :=
  isAsciiDigit c || ('a' ≤ c && c ≤ 'f') || ('A' ≤ c && c ≤ 'F')

/-- An octal digit. -/
def isOctalDigit (c : Char) : Bool := '0' ≤ c && c ≤ '7'

/-- The code point written with exactly so many hexadecimal digits. -/
def hexCode (count : Nat) : Reading Nat := do
  let digits ← takeWhile isHexDigit count
  if digits.length ≠ count then throw .malformed
  return codeOf 16 digits

/-- The code point of a character that is named in braces. -/
def namedCode : Reading Nat := do
  expect '\x7b'
  match (← get).characters.code? (← name '\x7d') with
  | some code => return code
  | none => throw .malformed

/-- The characters that stand behind a backslash for a control. -/
def controlEscape? : Char → Option Nat
  | 'a' => some 7
  | 'b' => some 8
  | 'f' => some 12
  | 'n' => some 10
  | 'r' => some 13
  | 't' => some 9
  | 'v' => some 11
  | '\\' => some 92
  | _ => none

/-- The class that a letter behind a backslash names. -/
def classEscape? : Char → Option SetItem
  | 'd' => some (.named .digit false)
  | 'D' => some (.named .digit true)
  | 's' => some (.named .blank false)
  | 'S' => some (.named .blank true)
  | 'w' => some (.named .word false)
  | 'W' => some (.named .word true)
  | _ => none

/-- The anchor that a letter behind a backslash names. -/
def anchorEscape? : Char → Option Anchor
  | 'A' => some .textStart
  | 'Z' => some .textEnd
  | 'b' => some .boundary
  | 'B' => some .noBoundary
  | _ => none

/-- The code point of an escape that is neither a class, an anchor nor a reference. -/
def plainEscape (c : Char) : Reading Nat := do
  match controlEscape? c with
  | some code => return code
  | none =>
    if c = 'x' then hexCode 2
    else if c = 'u' then hexCode 4
    else if c = 'U' then
      let code ← hexCode 8
      if 0x110000 ≤ code then throw .malformed
      return code
    else if c = 'N' then namedCode
    else if isAsciiLetter c || isAsciiDigit c then throw .malformed
    else return c.toNat

/-- An escape inside a character set. -/
def setEscape (c : Char) : Reading SetItem := do
  match classEscape? c with
  | some item => return item
  | none =>
    if isOctalDigit c then
      let code := codeOf 8 (c :: (← takeWhile isOctalDigit 2))
      if 0o377 < code then throw .malformed
      return .code code
    else return .code (← plainEscape c)

/-- A digit from one to nine behind a backslash begins an octal code of three digits or names a
group by one or two. -/
def numberEscape (c : Char) : Reading Node := do
  let second ← takeWhile isAsciiDigit 1
  let third ←
    if isOctalDigit c && !second.isEmpty && second.all isOctalDigit then takeWhile isOctalDigit 1
    else pure []
  if third.isEmpty then reference (codeOf 10 (c :: second))
  else
    let code := codeOf 8 (c :: second ++ third)
    if 0o377 < code then throw .malformed
    return .literal code false

/-- An escape outside character sets. -/
def escapeNode (c : Char) : Reading Node := do
  match classEscape? c, anchorEscape? c with
  | some item, _ => return .set false [item]
  | none, some anchor => return .anchor anchor
  | none, none =>
    if c = '0' then return .literal (codeOf 8 (← takeWhile isOctalDigit 2)) false
    else if isAsciiDigit c then numberEscape c
    else return .literal (← plainEscape c) false

/-- An item of a character set, given its first token. -/
def setItem : Token → Reading SetItem
  | .char c => return .code c.toNat
  | .escape c => setEscape c
  | .dangling => throw .malformed

/-- The items of a character set up to its closing bracket, which may not be the first. -/
def setItems (first : Bool) : (fuel : Nat) → Reading (List SetItem)
  | 0 => throw .malformed
  | fuel + 1 => do
    match ← take with
    | none => throw .malformed
    | some token =>
      if token = .char ']' && !first then return []
      let low ← setItem token
      if ← accept '-' then
        match ← take with
        | none => throw .malformed
        | some upper =>
          if upper = .char ']' then return [low, .code '-'.toNat]
          let high ← setItem upper
          match low, high with
          | .code low, .code high =>
            if high < low then throw .malformed
            return .range low high :: (← setItems false fuel)
          | _, _ => throw .malformed
      else return low :: (← setItems false fuel)

/-- A character set after its opening bracket. -/
def setNode : Reading Node := do
  let negated ← accept '^'
  let items ← setItems true ((← remaining) + 1)
  match items with
  | [.code code] => return .literal code negated
  | items => return .set negated items

/-- The number that digits write, if there are any. -/
def boundOf (digits : List Char) : Reading (Option Nat) := do
  if digits.isEmpty then return none
  if digitLimit < digits.length then throw (.tooManyDigits digits.length)
  let bound := codeOf 10 digits
  if repeatLimit ≤ bound then throw .repetitionTooLarge
  return some bound

/-- The bounds of a repetition in braces, after the opening one.  Without a closing brace the
opening one stands for itself and nothing is taken. -/
def bracedBounds : Reading (Option (Nat × Option Nat)) := do
  let before ← get
  if (← peek) = some (.char '}') then return none
  let low ← takeWhile isAsciiDigit (← remaining)
  let high ← if ← accept ',' then takeWhile isAsciiDigit (← remaining) else pure low
  if ← accept '}' then
    let least ← boundOf low
    let most ← boundOf high
    if let (some least, some most) := (least, most) then
      if most < least then throw .malformed
    return some (least.getD 0, most)
  else
    set before
    return none

/-- Whether a part may be repeated: an anchor may not, nor may a repetition. -/
def isRepeatable : Node → Bool
  | .anchor _ | .repeated .. => false
  | _ => true

/-- How much a repetition takes, by the mark after it. -/
def greedMark : Reading Greed := do
  if ← accept '?' then return .lazy
  if ← accept '+' then return .possessive
  return .greedy

/-- Repeats the last part read. -/
def repeatLast (read : List Node) (least : Nat) (most : Option Nat) : Reading (List Node) := do
  match read with
  | [] => throw .malformed
  | last :: before =>
    unless isRepeatable last do throw .malformed
    let greed ← greedMark
    return .repeated greed least most last :: before

/-- The option that a letter names. -/
def flagOf? : Char → Option Flags
  | 'i' => some { ignoreCase := true }
  | 'm' => some { multiline := true }
  | 's' => some { dotAll := true }
  | 'x' => some { verbose := true }
  | 'a' => some { ascii := true }
  | 't' => some { template := true }
  | 'u' => some { unicode := true }
  | _ => none

/-- Adds the option that a letter names. -/
def addFlag (flags : Flags) (c : Char) : Reading Flags :=
  match flagOf? c with
  | some flag => return flags.union flag
  | none => throw .malformed

/-- The options to turn on, from the first letter to the character that ends them. -/
def flagsOn (flags : Flags) (c : Char) : (fuel : Nat) → Reading (Flags × Char)
  | 0 => throw .malformed
  | fuel + 1 => do
    let flags ← addFlag flags c
    if flags.ascii && flags.unicode then throw .malformed
    match ← take with
    | some (.char next) =>
      if next = ')' || next = '-' || next = ':' then return (flags, next)
      else flagsOn flags next fuel
    | _ => throw .malformed

/-- The options to turn off, from the first letter to the colon. -/
def flagsOff (flags : Flags) (c : Char) : (fuel : Nat) → Reading Flags
  | 0 => throw .malformed
  | fuel + 1 => do
    let flags ← addFlag flags c
    if flags.ascii || flags.unicode then throw .malformed
    match ← take with
    | some (.char ':') => return flags
    | some (.char next) => flagsOff flags next fuel
    | _ => throw .malformed

/-- The options behind a question mark: for the whole pattern, or a change for a group. -/
def flagChange (c : Char) : Reading (Option FlagChange) := do
  let fuel := (← remaining) + 1
  let (on, stop) ← if c = '-' then pure ({}, '-') else flagsOn {} c fuel
  if stop = ')' then
    modify fun s => { s with flags := s.flags.union on }
    return none
  if on.template then throw .malformed
  if stop = ':' then return some { on }
  match ← take with
  | some (.char first) =>
    let off ← flagsOff {} first fuel
    if off.template || on.overlaps off then throw .malformed
    return some { on, off }
  | _ => throw .malformed

/-- Skips a comment in a group. -/
def skipComment : (fuel : Nat) → Reading Unit
  | 0 => throw .malformed
  | fuel + 1 => do
    match ← take with
    | none => throw .malformed
    | some token => unless token = .char ')' do skipComment fuel

/-- Skips a comment to the end of the line. -/
def skipLine : (fuel : Nat) → Reading Unit
  | 0 => return
  | fuel + 1 => do
    match ← take with
    | none => return
    | some token => unless token = .char '\n' do skipLine fuel

/-- The group that a condition names, by its name or its number. -/
def conditionGroup (cs : List Char) : Reading Nat := do
  if isIdentifier cs then
    match (← get).names.lookup (String.ofList cs) with
    | some index => return index
    | none => throw .malformed
  else
    match readInteger cs with
    | .ok (.ofNat (index + 1)) =>
      if 1073741823 ≤ index + 1 then throw .malformed
      modify fun s => { s with conditions := (index + 1) :: s.conditions }
      return index + 1
    | _ => throw .malformed

/-- The parts read, last first, as one. -/
def joined (read : List Node) : Node :=
  read.foldl (fun after node => match after with
    | .empty => node
    | after => .seq node after) .empty

/-- What opens a group. -/
inductive GroupKind where
  | capture (name : Option String)
  | plain (change : FlagChange)
  | atomic

mutual

/-- Alternatives up to a closing parenthesis or the end. -/
def alternatives (fuel : Nat) (verbose outermost first : Bool) : Reading Node :=
  match fuel with
  | 0 => throw .malformed
  | fuel + 1 => do
    let node ← sequence fuel verbose (outermost && first) []
    if ← accept '|' then
      let flags := (← get).flags
      let verbose := if outermost then flags.verbose else verbose
      return .either node (← alternatives fuel verbose outermost false)
    else return node

/-- Parts one after another, up to a bar, a closing parenthesis or the end. -/
def sequence (fuel : Nat) (verbose first : Bool) (read : List Node) : Reading Node :=
  match fuel with
  | 0 => throw .malformed
  | fuel + 1 => do
    let some token ← peek | return joined read
    if token = .char '|' || token = .char ')' then return joined read
    skip
    match token with
    | .dangling => throw .malformed
    | .escape c => sequence fuel verbose first ((← escapeNode c) :: read)
    | .char c =>
      if verbose && isAsciiBlank c then sequence fuel verbose first read
      else if verbose && c = '#' then
        skipLine ((← remaining) + 1)
        sequence fuel verbose first read
      else match c with
      | '[' => sequence fuel verbose first ((← setNode) :: read)
      | '?' => sequence fuel verbose first (← repeatLast read 0 (some 1))
      | '*' => sequence fuel verbose first (← repeatLast read 0 none)
      | '+' => sequence fuel verbose first (← repeatLast read 1 none)
      | '{' =>
        match ← bracedBounds with
        | none => sequence fuel verbose first (.literal c.toNat false :: read)
        | some (least, most) => sequence fuel verbose first (← repeatLast read least most)
      | '.' => sequence fuel verbose first (.any :: read)
      | '^' => sequence fuel verbose first (.anchor .lineStart :: read)
      | '$' => sequence fuel verbose first (.anchor .lineEnd :: read)
      | '(' =>
        if ← accept '?' then
          match ← take with
          | some (.char 'P') =>
            if ← accept '<' then
              let name ← name '>'
              unless isIdentifier name do throw .malformed
              let node ← groupBody fuel verbose (.capture (some (String.ofList name)))
              sequence fuel verbose first (node :: read)
            else if ← accept '=' then
              let name ← name ')'
              unless isIdentifier name do throw .malformed
              let some index := (← get).names.lookup (String.ofList name) | throw .malformed
              sequence fuel verbose first ((← reference index) :: read)
            else throw .malformed
          | some (.char ':') =>
            sequence fuel verbose first ((← groupBody fuel verbose (.plain {})) :: read)
          | some (.char '>') =>
            sequence fuel verbose first ((← groupBody fuel verbose .atomic) :: read)
          | some (.char '#') =>
            skipComment ((← remaining) + 1)
            sequence fuel verbose first read
          | some (.char '=') =>
            sequence fuel verbose first ((← lookBody fuel verbose .ahead false) :: read)
          | some (.char '!') =>
            sequence fuel verbose first ((← lookBody fuel verbose .ahead true) :: read)
          | some (.char '<') =>
            match ← take with
            | some (.char '=') =>
              sequence fuel verbose first ((← lookBody fuel verbose .behind false) :: read)
            | some (.char '!') =>
              sequence fuel verbose first ((← lookBody fuel verbose .behind true) :: read)
            | _ => throw .malformed
          | some (.char '(') =>
            let index ← conditionGroup (← name ')')
            checkReach index
            let yes ← sequence fuel verbose false []
            let no ← if ← accept '|' then sequence fuel verbose false [] else pure .empty
            expect ')'
            sequence fuel verbose first (.given index yes no :: read)
          | some (.char c) =>
            unless c = '-' || (flagOf? c).isSome do throw .malformed
            match ← flagChange c with
            | some change =>
              sequence fuel verbose first ((← groupBody fuel verbose (.plain change)) :: read)
            | none =>
              if !first || !read.isEmpty then throw .malformed
              let flags := (← get).flags
              sequence fuel flags.verbose first read
          | _ => throw .malformed
        else
          sequence fuel verbose first ((← groupBody fuel verbose (.capture none)) :: read)
      | c => sequence fuel verbose first (.literal c.toNat false :: read)

/-- The inside of a group and its closing parenthesis. -/
def groupBody (fuel : Nat) (verbose : Bool) (kind : GroupKind) : Reading Node :=
  match fuel with
  | 0 => throw .malformed
  | fuel + 1 => do
    match kind with
    | .capture name =>
      let index ← openGroup name
      let body ← alternatives fuel verbose false true
      expect ')'
      closeGroup index body
      return .capture index body
    | .plain change =>
      let verbose := (verbose || change.on.verbose) && !change.off.verbose
      let body ← alternatives fuel verbose false true
      expect ')'
      return .scoped change body
    | .atomic =>
      let body ← alternatives fuel verbose false true
      expect ')'
      return .atomic body

/-- The inside of an assertion and its closing parenthesis. -/
def lookBody (fuel : Nat) (verbose : Bool) (gaze : Gaze) (negated : Bool) : Reading Node :=
  match fuel with
  | 0 => throw .malformed
  | fuel + 1 => do
    let outside := (← get).behindGroups
    if gaze = .behind && outside.isNone then
      modify fun s => { s with behindGroups := some s.groups }
    let body ← alternatives fuel verbose false true
    if gaze = .behind then modify fun s => { s with behindGroups := outside }
    expect ')'
    return .look gaze negated body

end

/-- A whole pattern. -/
def wholePattern (source : String) : Reading Pattern := do
  checkNext
  let node ← alternatives (4 * (← remaining) + 8) false true true
  let s ← get
  if s.flags.ascii && s.flags.unicode then throw .incompatibleFlags
  unless s.rest.isEmpty do throw .malformed
  if s.conditions.any (s.groups < ·) then throw .malformed
  let widths := widthOf s.widths
  unless node.looksBehindFixed widths do throw .malformed
  if s.flags.template && node.hasRepetition then throw .malformed
  return { source, flags := s.flags, node,
           groupWidths := (List.range s.groups).map fun i => widths (i + 1) }

/-- The pattern that a text denotes, with the names of characters in a table. -/
def read (source : String) (characters : CharacterNames := .known) : Except PatternFault Pattern :=
  (wholePattern source).run' { rest := tokens source.toList, characters }

end FieldRules.Pattern
