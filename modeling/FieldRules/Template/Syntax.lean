import FieldRules.Fault

/-! # Message templates

A template is literal text with fields between braces; a doubled brace stands for itself.  A field
names what is inserted, may go on from there to members and items, may ask for a conversion behind
`!`, and gives a layout behind `:`.  Templates are read from the left: a piece that is wrong ends
the list of pieces, so that the fields before it are still filled in first.
-/

namespace FieldRules.Template

open FieldRules.Text

/-- A field between braces. -/
structure Field where
  /-- What is inserted, with the way from it to its parts. -/
  name : List Char
  conversion : Option Char := none
  /-- The layout, which may hold fields itself. -/
  spec : List Char := []
  deriving DecidableEq, Repr

/-- A piece of a template. -/
inductive Piece where
  | literal (text : List Char)
  | field (field : Field)
  | broken (fault : TemplateFault)
  deriving DecidableEq, Repr

/-- The name at the front of a field, with the character that ends it and the text after that.
Between brackets any character is part of the name. -/
def takeName (inBrackets : Bool) :
    List Char → Except TemplateFault (List Char × Option (Char × List Char))
  | [] => .ok ([], none)
  | c :: rest =>
    if inBrackets then
      (takeName (c != ']') rest).map fun (name, stop) => (c :: name, stop)
    else if c = '\x7b' then .error .openInName
    else if c = '\x7d' || c = ':' || c = '!' then .ok ([], some (c, rest))
    else (takeName (c == '[') rest).map fun (name, stop) => (c :: name, stop)

/-- The layout of a field up to the brace that closes it, `depth` braces being open inside. -/
def takeSpec (depth : Nat) : List Char → Except TemplateFault (List Char × List Char)
  | [] => .error .specNotClosed
  | c :: rest =>
    if c = '\x7b' then (takeSpec (depth + 1) rest).map fun (spec, after) => (c :: spec, after)
    else if c = '\x7d' then
      match depth with
      | 0 => .ok ([], rest)
      | depth + 1 => (takeSpec depth rest).map fun (spec, after) => (c :: spec, after)
    else (takeSpec depth rest).map fun (spec, after) => (c :: spec, after)

/-- The rest of a field from its layout on. -/
def takeLayout (name : List Char) (conversion : Option Char) (cs : List Char) :
    Except TemplateFault (Field × List Char) :=
  (takeSpec 0 cs).map fun (spec, after) => (⟨name, conversion, spec⟩, after)

/-- The rest of a field from its conversion on. -/
def takeConversion (name : List Char) : List Char → Except TemplateFault (Field × List Char)
  | [] => .error .conversionMissing
  | [_] => .error .specNotClosed
  | conversion :: c :: rest =>
    if c = '\x7d' then .ok (⟨name, some conversion, []⟩, rest)
    else if c = ':' then takeLayout name (some conversion) rest
    else .error .colonExpected

/-- A field after its opening brace. -/
def takeField (cs : List Char) : Except TemplateFault (Field × List Char) := do
  match ← takeName false cs with
  | (_, none) => .error .nameNotClosed
  | (name, some (c, rest)) =>
    if c = '!' then takeConversion name rest
    else if c = ':' then takeLayout name none rest
    else return (⟨name, none, []⟩, rest)

/-- Whether a character has no meaning of its own in a template. -/
def isPlain (c : Char) : Bool := c != '\x7b' && c != '\x7d'

/-- The pieces of a text that is shorter than `fuel`. -/
def piecesWith : (fuel : Nat) → List Char → List Piece
  | 0, _ => []
  | fuel + 1, cs =>
    match cs with
    | [] => []
    | [c] =>
      if c = '\x7b' then [.broken .singleOpen]
      else if c = '\x7d' then [.broken .singleClose]
      else [.literal [c]]
    | c :: d :: rest =>
      if isPlain c then
        .literal (c :: (d :: rest).takeWhile isPlain) ::
          piecesWith fuel ((d :: rest).dropWhile isPlain)
      else if c = d then .literal [c] :: piecesWith fuel rest
      else if c = '\x7d' then [.broken .singleClose]
      else
        match takeField (d :: rest) with
        | .error fault => [.broken fault]
        | .ok (field, after) => .field field :: piecesWith fuel after

/-- The pieces of a template. -/
def piecesOf (cs : List Char) : List Piece := piecesWith (cs.length + 1) cs

/-- The greatest number in a template. -/
def numberLimit : Nat := Number.twoTo 63 - 1

/-- The number that a row of digits of any script denotes; none for anything else. -/
def number? (cs : List Char) : Except TemplateFault (Option Nat) :=
  if cs.isEmpty || !cs.all isDigit then .ok none
  else
    let n := cs.foldl (fun sum c => 10 * sum + (digitValue? c).getD 0) 0
    if n ≤ numberLimit then .ok (some n) else .error .tooManyDigits

/-- A way from a value to a part of it. -/
inductive Way where
  | member (name : List Char)
  | item (index : Nat)
  | key (name : List Char)
  | broken (fault : TemplateFault)
  deriving DecidableEq, Repr

/-- Whether a character begins a way. -/
def beginsWay (c : Char) : Bool := c == '.' || c == '['

/-- The ways in the rest of a name that is shorter than `fuel`. -/
def waysWith : (fuel : Nat) → List Char → List Way
  | 0, _ => []
  | fuel + 1, cs =>
    match cs with
    | [] => []
    | c :: rest =>
      if c = '.' then
        match rest.takeWhile fun d => !beginsWay d with
        | [] => [.broken .emptyAttribute]
        | name => .member name :: waysWith fuel (rest.dropWhile fun d => !beginsWay d)
      else if c = '[' then
        match cut ']' rest with
        | (_, none) => [.broken .bracketNotClosed]
        | ([], some _) => [.broken .emptyAttribute]
        | (name, some after) =>
          match number? name with
          | .error fault => [.broken fault]
          | .ok (some index) => .item index :: waysWith fuel after
          | .ok none => .key name :: waysWith fuel after
      else [.broken .badAfterBracket]

/-- The ways in the rest of a name. -/
def waysOf (cs : List Char) : List Way := waysWith (cs.length + 1) cs

/-- The name of what a field inserts, without the ways from there. -/
def Field.root (field : Field) : List Char := field.name.takeWhile fun c => !beginsWay c

/-- The ways from what a field inserts to its part. -/
def Field.ways (field : Field) : List Way := waysOf (field.name.dropWhile fun c => !beginsWay c)

end FieldRules.Template
