import FieldRules.Settings.Basic

/-! # Settings that share dictionaries

A dictionary that is added as a source, or set, is kept itself and not as a copy. The same one may
stand at several keys and in several sources, and what is put into it at one of them stands at the
others too. Only where the sources are joined their dictionaries are copied. Dictionaries that stand
at one place alone need no identity: they are the trees of `Settings`.
-/

namespace FieldRules.Settings

/-- What stands at a key: a dictionary, by its place among all that there are, or another value. -/
inductive Slot where
  | leaf (value : Value)
  | dict (place : Nat)

/-- The entries of all dictionaries that there are. -/
abbrev Heap := List (List (Value × Slot))

namespace Heap

/-- The tree that begins in a slot, if its paths end within a depth. -/
def read? (heap : Heap) : (depth : Nat) → Slot → Option Value
  | _, .leaf value => some value
  | 0, .dict _ => none
  | depth + 1, .dict place => do
    let cell ← heap[place]?
    let entries ← cell.mapM fun entry => do return (entry.1, ← heap.read? depth entry.2)
    return .dict entries

/-- The trees that begin in slots. A path through more dictionaries than there are goes through one
of them twice, and never ends. -/
def trees? (heap : Heap) (cell : List (Value × Slot)) : Option (List (Value × Value)) :=
  cell.mapM fun entry => do return (entry.1, ← heap.read? heap.length entry.2)

/-- The heap with a new, empty dictionary at a key of an old one. -/
def withSection (heap : Heap) (place : Nat) (part : String) : Heap :=
  heap.set place (Value.insert (.str part) (.dict heap.length) (heap.getD place [])) ++ [[]]

/-- Puts something at the end of a path, with new dictionaries where the path goes further than the
old ones. -/
def assign (slot : Slot) : (path : List String) → (start : Slot) → Heap → Outcome Unit × Heap
  | [], _, heap => (.ok (), heap)
  | [last], .dict place, heap =>
    (.ok (), heap.set place (Value.insert (.str last) slot (heap.getD place [])))
  | [_], .leaf value, heap => (.error (noRoom value), heap)
  | part :: rest, .dict place, heap =>
    match Value.lookup? (.str part) (heap.getD place []) with
    | some inner => assign slot rest inner heap
    | none => assign slot rest (.dict heap.length) (heap.withSection place part)
  | _ :: _ :: _, .leaf value, heap =>
    (.error (.noMember value.qualifiedTypeName "setdefault"), heap)

mutual

/-- Makes the dictionaries of a tree. -/
def make : Value → Heap → Slot × Heap
  | .dict entries, heap =>
    let (cell, heap) := makeAll entries heap
    (.dict heap.length, heap ++ [cell])
  | value, heap => (.leaf value, heap)

/-- Makes the dictionaries of several trees. -/
def makeAll : List (Value × Value) → Heap → List (Value × Slot) × Heap
  | [], heap => ([], heap)
  | (key, value) :: rest, heap =>
    let (slot, heap) := make value heap
    let (cell, heap) := makeAll rest heap
    ((key, slot) :: cell, heap)

end

end Heap

/-- A source by what it holds, with its name and its priority. -/
structure Holder where
  name : String
  root : Slot
  priority : Int := 0

/-- Settings whose sources hold dictionaries that may be shared. -/
structure Shared where
  heap : Heap := []
  holders : List Holder := []
  /-- What was joined and looked up; the sources themselves are those of the holders. -/
  memory : Settings := {}

namespace Shared

/-- What the sources hold, by their names. -/
def roots (shared : Shared) : List (Value × Slot) :=
  shared.holders.map fun holder => (.str holder.name, holder.root)

/-- The holders as sources with trees. -/
def dress (holders : List Holder) (trees : List (Value × Value)) : List Source :=
  List.zipWith (fun holder entry => ⟨holder.name, entry.2, holder.priority⟩) holders trees

/-- The settings with trees for what the holders hold. -/
def dressed (shared : Shared) (trees : List (Value × Value)) : Settings :=
  { shared.memory with sources := dress shared.holders trees }

/-- The settings with copies of all dictionaries; none if a dictionary stands within itself. -/
def settings? (shared : Shared) : Option Settings :=
  (shared.heap.trees? shared.roots).map shared.dressed

/-- Looks something up. Without a copy of the dictionaries there is no answer. -/
def ask {α : Type} (task : SettingsTask α) (shared : Shared) : Option (Outcome α) × Shared :=
  match shared.settings? with
  | some settings =>
    let (outcome, memory) := task settings
    (some outcome, { shared with memory })
  | none => (none, shared)

/-- Notes that a source has changed. -/
def changed (shared : Shared) : Shared :=
  { shared with memory := { shared.memory with dirty := true } }

/-- Adds a source. -/
def addHolder (shared : Shared) (holder : Holder) : Shared :=
  { shared with holders := shared.holders ++ [holder] }.changed

/-- Adds a source all of whose dictionaries are new. -/
def addSource (shared : Shared) (source : Source) : Shared :=
  let (root, heap) := shared.heap.make source.tree
  { shared with heap }.addHolder ⟨source.name, root, source.priority⟩

/-- The settings with a source for what is set while running. -/
def withRuntime (shared : Shared) : Shared :=
  { shared with
    heap := shared.heap ++ [[]]
    holders := shared.holders ++ [⟨runtimeName, .dict shared.heap.length, runtimePriority⟩] }

/-- Where things are set while running; a source is added if there is none for them. -/
def runtime (shared : Shared) : Slot × Shared :=
  match shared.holders.find? fun holder => holder.name == runtimeName with
  | some holder => (holder.root, shared)
  | none => (.dict shared.heap.length, shared.withRuntime)

/-- Sets something while running. -/
def put (key : String) (slot : Slot) (shared : Shared) : Outcome Unit × Shared :=
  let (root, shared) := shared.runtime
  match Heap.assign slot (pathOf key) root shared.heap with
  | (.ok (), heap) => (.ok (), { shared with heap }.changed)
  | (.error fault, heap) => (.error fault, { shared with heap })

/-- Settings whose dictionaries stand at one place each. -/
def ofSettings (settings : Settings) : Shared :=
  { settings.sources.foldl addSource {} with memory := settings }

end Shared

end FieldRules.Settings
