import FieldRules.Keyed
import FieldRules.Settings.Environment
import FieldRules.Value.Convert

/-! # Settings

Settings come from sources of different priority: standard settings, variables of the environment,
and what is set while running.  Their trees are laid over each other by priority, a later one of
the same priority over an earlier one.  The joined tree, and what was looked up in it, is kept
until a source changes.

The tree of a source is its own here.  Sources that share dictionaries with each other are settings
of another kind, and come to these as long as no dictionary stands at two places.
-/

namespace FieldRules

namespace Settings

/-- A tree of settings with the name and the priority of its source. -/
structure Source where
  name : String
  tree : Value
  priority : Int := 0
  deriving Inhabited

/-- The standard settings. -/
def standardTree : Value :=
  Value.dict [
    (.str "validation", .dict [(.str "stop_on_first_failure", .bool false)]),
    (.str "logging", .dict [(.str "level", .str "WARNING"), (.str "format", .str "text")])]

/-- The name of the source of what is set while running. -/
def runtimeName : String := "runtime"

/-- The priority of what is set while running. -/
def runtimePriority : Int := 1000

/-- The priority of the variables of the environment. -/
def environmentPriority : Int := 100

end Settings

/-- Settings from several sources. -/
structure Settings where
  sources : List Settings.Source := []
  /-- The joined tree. -/
  merged : List (Value × Value) := []
  /-- What was looked up in the joined tree. -/
  cache : Keyed Value := []
  /-- Whether a source has changed since the trees were joined. -/
  dirty : Bool := true
  deriving Inhabited

/-- An operation on settings. -/
abbrev SettingsTask (α : Type) := ExceptT Fault (StateM Settings) α

namespace Settings

/-- Whether a source goes under another one. -/
def Source.isUnder (a b : Source) : Bool := a.priority ≤ b.priority

/-- Lays the trees of sources over each other. -/
def overlaySources (base : List (Value × Value)) :
    List Source → Outcome (List (Value × Value))
  | [] => .ok base
  | source :: rest =>
    match source.tree with
    | .dict entries => overlaySources (overlayEntries base entries) rest
    | tree => .error (noEntries tree)

/-- The joined tree of sources. -/
def joined (sources : List Source) : Outcome (List (Value × Value)) :=
  overlaySources [] (sources.mergeSort Source.isUnder)

/-- Adds a source. -/
def addSource (settings : Settings) (source : Source) : Settings :=
  { settings with sources := settings.sources ++ [source], dirty := true }

/-- Adds the settings that variables give, if there are any. -/
def loadEnvironment (environment : List (String × String)) (settings : Settings) :
    Outcome Settings := do
  let found ← readVariables environment
  if found.isEmpty then return settings
  let tree ← assignAll (.dict []) found
  return settings.addSource ⟨"env_vars", tree, environmentPriority⟩

/-- Settings with a tree of defaults and an environment. -/
def ofDefaults (defaults : Value) (environment : List (String × String)) : Outcome Settings := do
  match defaults with
  | .dict _ => loadEnvironment environment (({} : Settings).addSource ⟨"defaults", defaults, 0⟩)
  | defaults => .error (noEntries defaults)

/-- The standard settings alone. -/
def standard : Settings := ({} : Settings).addSource ⟨"defaults", standardTree, 0⟩

/-- Joins the trees again if a source has changed. -/
def refresh : SettingsTask Unit := do
  let settings ← get
  if settings.dirty then
    match joined settings.sources with
    | .ok merged => set { settings with merged, cache := [], dirty := false }
    | .error fault => throw fault

/-- What is set at a key, if anything is. -/
def find? (key : String) : SettingsTask (Option Value) := do
  refresh
  let settings ← get
  match settings.cache.get? key with
  | some kept => return some kept
  | none =>
    match walk? (pathOf key) (.dict settings.merged) with
    | some value =>
      set { settings with cache := settings.cache.put key value }
      return some value
    | none => return none

/-- What is set at a key, or a default. -/
def value (key : String) (default : Value) : SettingsTask Value :=
  return (← find? key).getD default

/-- The whole number at a key; a default if there is none. -/
def wholeNumber (key : String) (default : Value) : SettingsTask Value := do
  let found ← value key default
  match found.toInteger with
  | .ok n => return .int n
  | .error fault => if fault.isRejection then return default else throw fault

/-- Whether what is set at a key counts as true; of texts only some words do. -/
def truth (key : String) (default : Value) : SettingsTask Bool := do
  match ← value key default with
  | .bool b => return b
  | .str s => return (trueWords ++ ["1"]).contains (Text.lower s)
  | found => return found.isTruthy

/-- Whether something other than null is set at a key. -/
def has (key : String) : SettingsTask Bool := do
  match ← value key .none with
  | .none => return false
  | _ => return true

/-- What is set at a key, which must not be null. -/
def item (key : String) : SettingsTask Value := do
  match ← value key .none with
  | .none => throw (.missingKey (.str key))
  | found => return found

/-- The joined tree. -/
def all : SettingsTask Value := do
  refresh
  return .dict (← get).merged

/-- The section at a key, empty if there is none. -/
def part (key : String) : SettingsTask Value := do
  match ← value key .none with
  | .dict entries => return .dict entries
  | _ => return .dict []

/-- Puts a value into the first source of what is set while running. -/
def setIn (key : String) (value : Value) : List Source → Outcome (List Source)
  | [] => do
    let tree ← assign value (pathOf key) (.dict [])
    return [⟨runtimeName, tree, runtimePriority⟩]
  | source :: rest =>
    if source.name = runtimeName then do
      let tree ← assign value (pathOf key) source.tree
      return { source with tree } :: rest
    else do return source :: (← setIn key value rest)

/-- Sets a value while running. -/
def put (key : String) (value : Value) : SettingsTask Unit := do
  let settings ← get
  match setIn key value settings.sources with
  | .ok sources => set { settings with sources, dirty := true }
  | .error fault => throw fault

end Settings

end FieldRules
