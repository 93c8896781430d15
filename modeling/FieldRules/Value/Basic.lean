import FieldRules.Calendar.Date
import FieldRules.Number.Basic

/-! # Values

The values that rules check: scalars, dates, and collections of values.  The marker `missing`
stands for an attribute that the data do not have.
-/

namespace FieldRules

open Calendar Number

/-- A value.  The entries of a dictionary keep their order and have distinct keys. -/
inductive Value where
  | none
  | bool (b : Bool)
  | int (n : Int)
  | float (x : Binary64)
  | str (s : String)
  | list (items : List Value)
  | tuple (items : List Value)
  | set (items : List Value)
  | dict (entries : List (Value × Value))
  | bytes (octets : List UInt8)
  | date (date : Date)
  | datetime (time : DateTime)
  | missing
  deriving Inhabited

namespace Value

/-- The number that a value is; the truth values count as one and zero. -/
def number? : Value → Option Number
  | .bool b => some (.whole (if b then 1 else 0))
  | .int n => some (.whole n)
  | .float x => some (.binary x)
  | _ => Option.none

/-- The value of a number. -/
def ofNumber : Number → Value
  | .whole n => .int n
  | .binary x => .float x

/-- Whether a value counts as true. -/
def isTruthy : Value → Bool
  | .none | .missing => false
  | .bool b => b
  | .int n => n != 0
  | .float x => !x.isZero
  | .str s => s != ""
  | .list items | .tuple items | .set items => !items.isEmpty
  | .dict entries => !entries.isEmpty
  | .bytes octets => !octets.isEmpty
  | .date _ | .datetime _ => true

/-- A value is empty if it is absent, null or the text without characters. -/
def isEmpty : Value → Bool
  | .none | .missing => true
  | .str s => s == ""
  | _ => false

/-- The name of the type of a value. -/
def typeName : Value → String
  | .none => "NoneType"
  | .bool _ => "bool"
  | .int _ => "int"
  | .float _ => "float"
  | .str _ => "str"
  | .list _ => "list"
  | .tuple _ => "tuple"
  | .set _ => "set"
  | .dict _ => "dict"
  | .bytes _ => "bytes"
  | .date _ => "date"
  | .datetime _ => "datetime"
  | .missing => "_Missing"

/-- The name of the type of a value with the module of the calendar types. -/
def qualifiedTypeName : Value → String
  | .date _ => "datetime.date"
  | .datetime _ => "datetime.datetime"
  | value => value.typeName

mutual

/-- Whether two values are equal.  Numbers are equal by value, whatever their kind; sequences of
different kinds are never equal; sets and dictionaries disregard order. -/
def same : Value → Value → Bool
  | .none, v => match v with
    | .none => true
    | _ => false
  | .missing, v => match v with
    | .missing => true
    | _ => false
  | .bool b, v => (v.number?.map (Number.same (.whole (if b then 1 else 0)))).getD false
  | .int n, v => (v.number?.map (Number.same (.whole n))).getD false
  | .float x, v => (v.number?.map (Number.same (.binary x))).getD false
  | .str s, v => match v with
    | .str t => s == t
    | _ => false
  | .list xs, v => match v with
    | .list ys => sameItems xs ys
    | _ => false
  | .tuple xs, v => match v with
    | .tuple ys => sameItems xs ys
    | _ => false
  | .set xs, v => match v with
    | .set ys => xs.length == ys.length && itemsAmong xs ys
    | _ => false
  | .dict xs, v => match v with
    | .dict ys => xs.length == ys.length && entriesAmong xs ys
    | _ => false
  | .bytes xs, v => match v with
    | .bytes ys => xs == ys
    | _ => false
  | .date d, v => match v with
    | .date e => d == e
    | _ => false
  | .datetime t, v => match v with
    | .datetime u => t.same u
    | _ => false

/-- Whether two sequences are equal item by item. -/
def sameItems : List Value → List Value → Bool
  | [], [] => true
  | x :: xs, y :: ys => same x y && sameItems xs ys
  | _, _ => false

/-- Whether each item has an equal one in a list. -/
def itemsAmong : List Value → List Value → Bool
  | [], _ => true
  | x :: xs, ys => ys.any (fun y => same x y) && itemsAmong xs ys

/-- Whether each entry has one with equal key and value in a list. -/
def entriesAmong : List (Value × Value) → List (Value × Value) → Bool
  | [], _ => true
  | (k, v) :: xs, ys => ys.any (fun y => same k y.1 && same v y.2) && entriesAmong xs ys

end

/-- Whether a value is one of a list. -/
def isAmong (value : Value) (items : List Value) : Bool := items.any fun item => same item value

/-- The entry of a key. -/
def lookup? {α : Type} (key : Value) (entries : List (Value × α)) : Option α :=
  (entries.find? fun entry => same entry.1 key).map (·.2)

/-- Sets the value of a key: a key that is present keeps its place, a new one comes last. -/
def insert {α : Type} (key : Value) (value : α) : List (Value × α) → List (Value × α)
  | [] => [(key, value)]
  | (k, v) :: rest =>
    if same k key then (k, value) :: rest else (k, v) :: insert key value rest

/-- The dictionary with the given entries, later ones replacing earlier ones of the same key. -/
def dictOf (entries : List (Value × Value)) : Value :=
  .dict (entries.foldl (fun sum entry => insert entry.1 entry.2 sum) [])

/-- The order in which a set of whole numbers is printed. -/
def wholeBefore : Value → Value → Bool
  | .int a, .int b => a ≤ b
  | _, _ => true

/-- The set of the given items; of equal items the first is kept. -/
def setOf (items : List Value) : Value :=
  let distinct := items.foldl (fun sum item => if isAmong item sum then sum else sum ++ [item]) []
  let allWhole := distinct.all fun
    | .int _ => true
    | _ => false
  .set (if allWhole then distinct.mergeSort wholeBefore else distinct)

/-- The keys of a dictionary that are text, with their values. -/
def textEntries (entries : List (Value × Value)) : List (String × Value) :=
  entries.filterMap fun
    | (.str key, value) => some (key, value)
    | _ => Option.none

mutual

/-- The name of the type that keeps a value from being a key, if any does. -/
def unhashableType? : Value → Option String
  | .list _ => some "list"
  | .set _ => some "set"
  | .dict _ => some "dict"
  | .tuple items => unhashableItem? items
  | _ => Option.none

/-- The first such type among the items of a tuple. -/
def unhashableItem? : List Value → Option String
  | [] => Option.none
  | item :: items =>
    match unhashableType? item with
    | some name => some name
    | Option.none => unhashableItem? items

end

end Value

end FieldRules
