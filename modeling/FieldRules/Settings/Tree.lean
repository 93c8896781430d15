import FieldRules.Fault
import FieldRules.Text.Pieces

/-! # Trees of settings

Settings are dictionaries of values and further dictionaries.  A path is a row of keys; it may be
looked up, and a value may be put at its end.  A tree is laid over another one section by section.
-/

namespace FieldRules.Settings

/-- The keys of a dotted path. -/
def pathOf (key : String) : List String := Text.pieces '.' key

/-- What stands at the end of a path. -/
def walk? : (path : List String) → Value → Option Value
  | [], current => some current
  | part :: rest, .dict entries =>
    match Value.lookup? (.str part) entries with
    | some inner => walk? rest inner
    | none => none
  | _ :: _, _ => none

/-- Why a value that is no dictionary has no entries. -/
def noEntries (value : Value) : Fault := .noMember value.qualifiedTypeName "items"

/-- Why nothing can be put into a value that is no dictionary. -/
def noRoom (value : Value) : Fault :=
  match value with
  | .list _ => .wrongIndex "list"
  | value => .noItemAssignment value.qualifiedTypeName

/-- Puts a value at the end of a path, with new sections where the path goes further than the
tree. -/
def assign (value : Value) : (path : List String) → (tree : Value) → Outcome Value
  | [], tree => .ok tree
  | [last], .dict entries => .ok (.dict (Value.insert (.str last) value entries))
  | [_], tree => .error (noRoom tree)
  | part :: rest, .dict entries => do
    let inner ← assign value rest ((Value.lookup? (.str part) entries).getD (.dict []))
    return .dict (Value.insert (.str part) inner entries)
  | _ :: _ :: _, tree => .error (.noMember tree.qualifiedTypeName "setdefault")

/-- Puts several values at the ends of their paths. -/
def assignAll (tree : Value) : List (String × Value) → Outcome Value
  | [] => .ok tree
  | (key, value) :: rest => do assignAll (← assign value (pathOf key) tree) rest

mutual

/-- A value laid over an older one: two sections are joined, and anything else is replaced. -/
def overlay (old : Option Value) : Value → Value
  | .dict entries =>
    match old with
    | some (.dict base) => .dict (overlayEntries base entries)
    | _ => .dict entries
  | value => value

/-- Entries laid over older ones. -/
def overlayEntries (base : List (Value × Value)) : List (Value × Value) → List (Value × Value)
  | [] => base
  | (key, value) :: rest =>
    overlayEntries (Value.insert key (overlay (Value.lookup? key base) value) base) rest

end

end FieldRules.Settings
