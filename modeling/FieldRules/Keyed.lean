/-! # Entries by name

Lists of entries with distinct names, in the order in which the names were first given.  Every
operation is described by what it does to look-up and to the list of names.
-/

namespace FieldRules

/-- Entries by name. -/
abbrev Keyed (α : Type) := List (String × α)

namespace Keyed

variable {α : Type}

/-- The entry of a name. -/
def get? (entries : Keyed α) (name : String) : Option α := List.lookup name entries

/-- Whether there is an entry of a name. -/
def has (entries : Keyed α) (name : String) : Bool := (entries.get? name).isSome

/-- The names in order. -/
def names (entries : Keyed α) : List String := entries.map (·.1)

/-- Sets the entry of a name: a name that is present keeps its place, a new one comes last. -/
def put (name : String) (value : α) : Keyed α → Keyed α
  | [] => [(name, value)]
  | (other, old) :: rest =>
    if other = name then (name, value) :: rest else (other, old) :: put name value rest

/-- Sets several entries one after the other. -/
def putAll (entries : Keyed α) (more : List (String × α)) : Keyed α :=
  more.foldl (fun sum entry => put entry.1 entry.2 sum) entries

/-- The entries of a list of which later ones replace earlier ones of the same name. -/
def ofList (entries : List (String × α)) : Keyed α := putAll [] entries

/-- Takes the entry of a name out. -/
def drop (name : String) (entries : Keyed α) : Keyed α := entries.filter (·.1 ≠ name)

theorem get?_nil (name : String) : get? ([] : Keyed α) name = none := rfl

theorem get?_cons (other name : String) (value : α) (entries : Keyed α) :
    get? ((other, value) :: entries) name =
      if name = other then some value else get? entries name := by
  by_cases h : name = other
  · subst h; simp [get?]
  · have h' : (name == other) = false := by simpa using h
    simp [get?, List.lookup_cons, h, h']

theorem get?_put (name other : String) (value : α) (entries : Keyed α) :
    get? (put name value entries) other =
      if other = name then some value else get? entries other := by
  induction entries with
  | nil => simp [put, get?_cons, get?_nil]
  | cons entry rest ih =>
    obtain ⟨first, old⟩ := entry
    by_cases h : first = name
    · subst h; simp only [put, ↓reduceIte, get?_cons]; split <;> rfl
    · simp only [put, h, ↓reduceIte, get?_cons, ih]
      by_cases h' : other = first
      · subst h'; simp [h]
      · simp [h']

end Keyed

end FieldRules
