import FieldRules.Proofs.Settings.Trees
import FieldRules.Proofs.Text.Pieces

/-! # Putting a value at the end of a path

A value cannot be put at the end of a path that a leaf blocks. Otherwise it is put there, above it
there are trees, and every path that goes another way leads where it did.
-/

namespace FieldRules.Settings

theorem pathOf_ne_nil (key : String) : pathOf key ≠ [] := by
  have some := (Text.separated_iff.mpr rfl : Text.Separated '.' key.toList _).some
  simpa [pathOf, Text.pieces] using some

/-- The entries that a path goes on in: there are none yet where nothing stands. -/
def room? : Option Value → Option (List (Value × Value))
  | none => some []
  | some (.dict entries) => some entries
  | some _ => none

/-- What stands at a place after a value was put at the end of a path that begins there. -/
def placed? (value : Value) : (path : List String) → (old : Option Value) → Option Value
  | [], _ => some value
  | part :: rest, old => do
    let entries ← room? old
    let inner ← placed? value rest (Value.lookup? (.str part) entries)
    return .dict (Value.insert (.str part) inner entries)

theorem placed?_cons {value tree : Value} {part : String} {rest : List String}
    {old : Option Value} : placed? value (part :: rest) old = some tree ↔
      ∃ entries, room? old = some entries ∧
        ∃ inner, placed? value rest (Value.lookup? (.str part) entries) = some inner ∧
          .dict (Value.insert (.str part) inner entries) = tree := by
  simp [placed?, Option.bind_eq_some_iff]

theorem room?_getD (old : Option Value) : room? (some (old.getD (.dict []))) = room? old := by
  cases old <;> rfl

/-- Puts a value in place wherever nothing is in the way. -/
theorem assign_eq (value : Value) (part : String) (rest : List String) (tree : Value) :
    (assign value (part :: rest) tree).toOption = placed? value (part :: rest) (some tree) := by
  induction rest generalizing part tree with
  | nil => cases tree <;> rfl
  | cons next rest ih =>
      cases tree with
      | dict entries =>
          have later := ih next ((Value.lookup? (.str part) entries).getD (.dict []))
          have same : placed? value (next :: rest) (some
                ((Value.lookup? (.str part) entries).getD (.dict []))) =
              placed? value (next :: rest) (Value.lookup? (.str part) entries) := by
            simp only [placed?, room?_getD]
          rw [placed?, room?, Option.bind_eq_bind, Option.bind_some, ← same, ← later, assign]
          · cases assign value (next :: rest) _ <;> rfl
          · exact List.cons_ne_nil _ _
      | _ => rfl

theorem assign_iff {value tree tree' : Value} {path : List String} (some : path ≠ []) :
    assign value path tree = .ok tree' ↔ placed? value path (.some tree) = .some tree' := by
  obtain ⟨part, rest, rfl⟩ := List.exists_cons_of_ne_nil some
  rw [← assign_eq]
  cases assign value (part :: rest) tree <;> simp [Except.toOption]

/-! ## Where a value was put -/

section Placed

variable {value tree : Value} {path : List String} {old : Option Value}

theorem placed?_tree (some : path ≠ []) (placed : placed? value path old = .some tree) :
    ∃ entries, tree = .dict entries := by
  obtain ⟨part, rest, rfl⟩ := List.exists_cons_of_ne_nil some
  obtain ⟨entries, -, inner, -, rfl⟩ := placed?_cons.mp placed
  exact ⟨_, rfl⟩

theorem placed?_tidy (placed : placed? value path old = some tree) (valueTidy : value.Tidy)
    (oldTidy : ∀ before ∈ old, before.Tidy) : tree.Tidy := by
  induction path generalizing old tree with
  | nil =>
      obtain rfl : value = tree := by simpa [placed?] using placed
      exact valueTidy
  | cons part rest ih =>
      obtain ⟨entries, room, inner, below, rfl⟩ := placed?_cons.mp placed
      have entriesTidy : (Value.dict entries).Tidy := by
        rcases old with - | (_ | _) <;> cases room
        · exact .empty
        · exact oldTidy _ rfl
      exact entriesTidy.insert _ (ih below fun before found => entriesTidy.lookup? found)

theorem ending_cons {entries : List (Value × Value)} (room : room? old = some entries)
    (part : String) (rest : List String) :
    ending (part :: rest) old = ending rest (Value.lookup? (.str part) entries) := by
  rcases old with - | (_ | _) <;> cases room
  · exact (ending_none rest).symm
  · rfl

/-- Only a leaf on the way keeps a value from being put at the end of a path. -/
theorem placed?_eq_none : placed? value path old = none ↔ ending path old = .blocked := by
  induction path generalizing old with
  | nil => rcases old with - | (_ | _) <;> simp [placed?, ending]
  | cons part rest ih =>
      cases room : room? old with
      | none => rcases old with - | (_ | _) <;> simp_all [placed?, ending, room?]
      | some entries =>
          rw [ending_cons room, ← ih]
          cases below : placed? value rest (Value.lookup? (.str part) entries) <;>
            simp [placed?, room, below]

theorem ending_placed_below (placed : placed? value path old = some tree) (more : List String) :
    ending (path ++ more) (some tree) = ending more (some value) := by
  induction path generalizing old tree with
  | nil =>
      obtain rfl : value = tree := by simpa [placed?] using placed
      rfl
  | cons part rest ih =>
      obtain ⟨entries, -, inner, below, rfl⟩ := placed?_cons.mp placed
      rw [List.cons_append, ending, Value.lookup?_insert_self]
      exact ih below

theorem ending_placed_above {part : String} {more : List String}
    (placed : placed? value (path ++ part :: more) old = some tree) :
    ending path (some tree) = .tree := by
  induction path generalizing old tree with
  | nil =>
      obtain ⟨entries, -, inner, -, rfl⟩ := placed?_cons.mp placed
      rfl
  | cons first rest ih =>
      obtain ⟨entries, -, inner, below, rfl⟩ := placed?_cons.mp placed
      rw [ending, Value.lookup?_insert_self]
      exact ih below

/-- A path that goes another way leads where it did. -/
theorem ending_placed_apart (placed : placed? value path old = some tree) {other : List String}
    (notBelow : ¬path <+: other) (notAbove : ¬other <+: path) :
    ending other (some tree) = ending other old := by
  induction path generalizing old tree other with
  | nil => exact absurd (List.nil_prefix) notBelow
  | cons part rest ih =>
      obtain ⟨entries, room, inner, below, rfl⟩ := placed?_cons.mp placed
      cases other with
      | nil => exact absurd (List.nil_prefix) notAbove
      | cons next others =>
          rw [ending, ending_cons room]
          by_cases same : part = next
          · subst same
            rw [Value.lookup?_insert_self]
            apply ih below
            · simpa [List.cons_prefix_cons] using notBelow
            · simpa [List.cons_prefix_cons] using notAbove
          · rw [Value.lookup?_insert_other (by simpa using same)]

end Placed

/-- What a path leads to when a value was put somewhere, from what it led to before. -/
def endingAfter (other : List String) (path : List String) (value : Value) (before : Ending) :
    Ending :=
  if path <+: other then ending (other.drop path.length) (some value)
  else if other <+: path then .tree
  else before

theorem ending_placed {value tree : Value} {path : List String} {old : Option Value}
    (placed : placed? value path old = some tree) (other : List String) :
    ending other (some tree) = endingAfter other path value (ending other old) := by
  rw [endingAfter]
  split
  next below =>
    obtain ⟨more, rfl⟩ := below
    rw [ending_placed_below placed, List.drop_left]
  next notBelow =>
    split
    next above =>
      obtain ⟨more, rfl⟩ := above
      cases more with
      | nil => simp at notBelow
      | cons part more => exact ending_placed_above placed
    next notAbove => exact ending_placed_apart placed notBelow notAbove

theorem assign_tidy {value : Value} (valueTidy : value.Tidy) {entries : List (Value × Value)}
    (entriesTidy : (Value.dict entries).Tidy) {path : List String} (some : path ≠ [])
    {tree : Value} (assigned : assign value path (.dict entries) = .ok tree) :
    ∃ entries', tree = .dict entries' ∧ tree.Tidy := by
  have placed := (assign_iff some).mp assigned
  obtain ⟨entries', rfl⟩ := placed?_tree some placed
  refine ⟨entries', rfl, placed?_tidy placed valueTidy ?_⟩
  rintro before ⟨⟩
  exact entriesTidy

end FieldRules.Settings
