import FieldRules.Template.Host
import FieldRules.Template.Layout

/-! # Filling in templates

Each field is looked up, taken along its ways, converted, and laid out; a layout that holds fields
is filled in first.  Inserted text is never read as a template again.
-/

namespace FieldRules.Template

/-- What a template is filled in with. -/
structure Supply where
  /-- What a name stands for. -/
  named : String → Outcome Value
  /-- Why there is nothing at a position. -/
  placed : Nat → Fault
  /-- What the members of values are. -/
  host : Host

/-- The item of a row at an index. -/
def itemAt {α : Type} (typeName : String) (items : List α) (index : Nat) : Outcome α :=
  match items[index]? with
  | some item => .ok item
  | none => .error (.indexOutOfRange typeName)

/-- The entry of a dictionary. -/
def entryAt (key : Value) (entries : List (Value × Value)) : Outcome Value :=
  match Value.lookup? key entries with
  | some value => .ok value
  | none => .error (.missingKey key)

/-- The item of a value at an index. -/
def itemOf (value : Value) (index : Nat) : Outcome Value :=
  match value with
  | .str s => (itemAt "str" s.toList index).map fun c => .str (String.ofList [c])
  | .list items => itemAt "list" items index
  | .tuple items => itemAt "tuple" items index
  | .bytes octets => (itemAt "bytes" octets index).map fun octet => .int octet.toNat
  | .dict entries => entryAt (.int index) entries
  | value => .error (.notSubscriptable value.qualifiedTypeName)

/-- The part of a value under a name. -/
def partOf (value : Value) (name : String) : Outcome Value :=
  match value with
  | .str _ | .list _ | .tuple _ | .bytes _ => .error (.wrongIndex value.typeName)
  | .dict entries => entryAt (.str name) entries
  | value => .error (.notSubscriptable value.qualifiedTypeName)

/-- Takes a way from a value or an object. -/
def follow (host : Host) : Thing → Way → Outcome Thing
  | _, .broken fault => .error (.template fault)
  | thing, .member name => host.member thing (String.ofList name)
  | .value value, .item index => (itemOf value index).map .value
  | .value value, .key name => (partOf value (String.ofList name)).map .value
  | .object id, .item index => host.item id (.int index)
  | .object id, .key name => host.item id (.str (String.ofList name))

/-- A text with numbers for the characters beyond ASCII. -/
def asciiOnly (s : String) : String :=
  String.ofList (s.toList.flatMap fun c =>
    if c.toNat < 0x80 then [c]
    else if c.toNat < 0x100 then '\\' :: 'x' :: Text.hexDigits 2 c.toNat
    else if c.toNat < 0x10000 then '\\' :: 'u' :: Text.hexDigits 4 c.toNat
    else '\\' :: 'U' :: Text.hexDigits 8 c.toNat)

/-- Converts a value or an object to text before it is laid out. -/
def converted (host : Host) (thing : Thing) : Option Char → Outcome Thing
  | none => .ok thing
  | some 'r' => (host.printOf thing).map fun s => .value (.str s)
  | some 's' => (host.plainOf thing).map fun s => .value (.str s)
  | some 'a' => (host.printOf thing).map fun s => .value (.str (asciiOnly s))
  | some c => .error (.template (.unknownConversion c))

/-- The text of a value or an object in a field with a layout. -/
def laidOut (host : Host) (spec : List Char) : Thing → Outcome (List Char)
  | .value value => layOut spec value
  | .object id => host.layOut id spec

/-- Looks up what a field inserts. -/
def Field.lookUp (field : Field) (supply : Supply) : Outcome Thing := do
  let root ← match field.root with
    | [] => .error (supply.placed 0)
    | name => do
      match ← lift (number? name) with
      | some index => .error (supply.placed index)
      | none => supply.named (String.ofList name)
  field.ways.foldlM (follow supply.host) (.value root)

/-- Fills in pieces, layouts being filled in by `inner`. -/
def fillPieces (supply : Supply) (inner : List Char → Outcome (List Char)) :
    List Piece → Outcome (List Char)
  | [] => .ok []
  | .literal text :: pieces => do return text ++ (← fillPieces supply inner pieces)
  | .broken fault :: _ => .error (.template fault)
  | .field field :: pieces => do
    let thing ← converted supply.host (← field.lookUp supply) field.conversion
    let spec ← if field.spec.contains '\x7b' then inner field.spec else pure field.spec
    let text ← laidOut supply.host spec thing
    return text ++ (← fillPieces supply inner pieces)

/-- Fills in a text of which layouts may hold fields `depth` levels deep. -/
def fillWith (supply : Supply) : (depth : Nat) → List Char → Outcome (List Char)
  | 0, _ => .error (.template .tooDeep)
  | depth + 1, cs => fillPieces supply (fillWith supply depth) (piecesOf cs)

/-- Fills in a template. -/
def fill (supply : Supply) (template : String) : Outcome String :=
  (fillWith supply 2 template.toList).map String.ofList

end FieldRules.Template
