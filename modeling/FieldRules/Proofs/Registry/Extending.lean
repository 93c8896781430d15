import FieldRules.Proofs.Registry.Making
import Mathlib.Data.List.Basic

/-! # Registering several rules at once

Several entries are all checked before any of them is registered. Since checking has nothing to do
with what is registered, this comes to the same as registering one entry after the other if all of
them can be registered. If one cannot, it is the first such entry that is to blame on both ways, but
here nothing has been registered by then.
-/

namespace FieldRules

/-- The identifier that a key of a dictionary gives: only a text gives one. -/
def Value.identifier? : Value → Option String
  | .str identifier => some identifier
  | _ => .none

/-! ## Dictionaries of entries -/

/-- Keys that may stand in one dictionary: each can be looked up, and no two are equal. -/
structure ProperKeys (rows : List (Value × Written)) : Prop where
  hashable : ∀ row ∈ rows, row.1.unhashableType? = none
  distinct : rows.Pairwise fun row other => Value.same row.1 other.1 = false

theorem insertWritten_new {sum : List (Value × Written)} {key : Value}
    (new : ∀ row ∈ sum, Value.same row.1 key = false) (written : Written) :
    insertWritten key written sum = sum ++ [(key, written)] := by
  induction sum with
  | nil => rfl
  | cons row rest ih =>
      obtain ⟨different, others⟩ := List.forall_mem_cons.mp new
      simp [insertWritten, different, ih others]

theorem keyedEntries_append {sum rows : List (Value × Written)} (proper : ProperKeys (sum ++ rows)) :
    keyedEntries sum rows = .ok ((sum ++ rows).map fun row => (row.1.identifier?, row.2)) := by
  induction rows generalizing sum with
  | nil =>
      rw [keyedEntries, List.append_nil]
      rfl
  | cons row rest ih =>
      obtain ⟨key, written⟩ := row
      have hashable : key.unhashableType? = none :=
        proper.hashable (key, written) (List.mem_append_right _ List.mem_cons_self)
      have new : ∀ row ∈ sum, Value.same row.1 key = false := fun row member =>
        (List.pairwise_append.mp proper.distinct).2.2 row member (key, written) List.mem_cons_self
      have moved : sum ++ (key, written) :: rest = sum ++ [(key, written)] ++ rest := by simp
      rw [moved] at proper ⊢
      simp only [keyedEntries, hashable, insertWritten_new new, ih proper]

/-- The rows of a dictionary are entries in order. -/
theorem keyedEntries_proper {rows : List (Value × Written)} (proper : ProperKeys rows) :
    keyedEntries [] rows = .ok (rows.map fun row => (row.1.identifier?, row.2)) :=
  @keyedEntries_append [] rows proper

namespace Registry

/-! ## One entry -/

/-- A registry with checked entries more. -/
def adding (registry : Registry) (prepared : List (String × Factory)) : Registry :=
  { registry with entries := registry.entries.putAll prepared }

theorem adding_cons (registry : Registry) (first : String × Factory)
    (rest : List (String × Factory)) :
    (registry.adding [first]).adding rest = registry.adding (first :: rest) := rfl

/-- An entry that passes its check is added, and any other changes no more than checking does. -/
theorem register_eq (written : Written) (identifier : Option String) (w : Workspace) :
    register written identifier w =
      match prepare written identifier w with
      | (.error fault, w') => (.error fault, w')
      | (.ok prepared, w') =>
        (.ok prepared.1, { w' with
          registry := w'.registry.adding [prepared]
          events := w'.events ++ [.registered prepared.1] }) := by
  simp only [register, Task.bind_eq]
  rcases prepare written identifier w with ⟨fault | prepared, w'⟩ <;> rfl

theorem register_refused {written : Written} {identifier : Option String} {w : Workspace}
    {fault : Fault} (refused : (register written identifier w).1 = .error fault) :
    (register written identifier w).2.registry = w.registry := by
  have kept := (prepare_detached written identifier).registry w
  rw [register_eq] at refused ⊢
  rcases checked : prepare written identifier w with ⟨other | prepared, w'⟩ <;>
    rw [checked] at refused kept
  · exact kept
  · exact nomatch refused

/-- Registering adds what has passed, if anything has, and changes nothing else of a registry. -/
theorem register_adds (written : Written) (identifier : Option String) (w : Workspace) :
    ∃ prepared, (register written identifier w).2.registry = w.registry.adding prepared := by
  have kept := (prepare_detached written identifier).registry w
  rw [register_eq, ← kept]
  rcases prepare written identifier w with ⟨fault | prepared, w'⟩
  · exact ⟨[], rfl⟩
  · exact ⟨[prepared], rfl⟩

/-! ## Several entries -/

/-- Registers entries one after another, until one cannot be registered. -/
def registerAll : List (Option String × Written) → Task (List String)
  | [] => return []
  | (identifier, written) :: rest => do
    let name ← register written identifier
    return name :: (← registerAll rest)

theorem prepareAll_cons (identifier : Option String) (written : Written)
    (rest : List (Option String × Written)) (w : Workspace) :
    prepareAll ((identifier, written) :: rest) w =
      match prepare written identifier w with
      | (.error fault, w') => (.error fault, w')
      | (.ok prepared, w') =>
        ((prepareAll rest w').1.map (prepared :: ·), (prepareAll rest w').2) := by
  simp only [prepareAll, Task.bind_eq]
  rcases prepare written identifier w with ⟨fault | prepared, w'⟩
  · rfl
  · simp only
    rcases prepareAll rest w' with ⟨fault | others, w''⟩ <;> rfl

theorem registerAll_cons (identifier : Option String) (written : Written)
    (rest : List (Option String × Written)) (w : Workspace) :
    registerAll ((identifier, written) :: rest) w =
      match register written identifier w with
      | (.error fault, w') => (.error fault, w')
      | (.ok name, w') => ((registerAll rest w').1.map (name :: ·), (registerAll rest w').2) := by
  simp only [registerAll, Task.bind_eq]
  rcases register written identifier w with ⟨fault | name, w'⟩
  · rfl
  · simp only
    rcases registerAll rest w' with ⟨fault | names, w''⟩ <;> rfl

/-- What registering entries one after another has done, seen from checking them all. -/
structure Registered (w checked : Workspace) (prepared : Outcome (List (String × Factory)))
    (run : Outcome (List String) × Workspace) : Prop where
  outcome : run.1 = prepared.map (·.map (·.1))
  rest : run.2 = { checked with registry := run.2.registry, events := run.2.events }
  added : ∀ entries, prepared = .ok entries → run.2.registry = w.registry.adding entries

/-- The entries registered so far make no difference to the check of the next one. -/
theorem registerAll_registered (entries : List (Option String × Written)) (w : Workspace) :
    Registered w (prepareAll entries w).2 (prepareAll entries w).1 (registerAll entries w) := by
  induction entries generalizing w with
  | nil => exact ⟨rfl, rfl, fun entries same => Except.ok.inj same ▸ rfl⟩
  | cons entry rest ih =>
      obtain ⟨identifier, written⟩ := entry
      have kept := (prepare_detached written identifier).registry w
      rw [prepareAll_cons, registerAll_cons, register_eq]
      rcases first : prepare written identifier w with ⟨fault | prepared, w'⟩ <;>
        rw [first] at kept
      · exact ⟨rfl, rfl, fun entries same => nomatch same⟩
      · simp only
        have others := ih { w' with
          registry := w'.registry.adding [prepared]
          events := w'.events ++ [.registered prepared.1] }
        rw [prepareAll_detached rest w'] at others
        refine ⟨?_, others.rest, ?_⟩
        · rw [others.outcome]
          cases (prepareAll rest w').1 <;> rfl
        · intro all same
          rcases checked : (prepareAll rest w').1 with fault | later
          · simp [checked, Except.map] at same
          · obtain rfl : prepared :: later = all := by simpa [checked, Except.map] using same
            rw [others.added later checked, ← kept, adding_cons]

/-- Nothing is added until all entries have passed. -/
theorem extend_eq (entries : List (Option String × Written)) (w : Workspace) :
    extend entries w =
      match prepareAll entries w with
      | (.error fault, w') => (.error fault, w')
      | (.ok prepared, w') =>
        (.ok (), { w' with
          registry := w'.registry.adding prepared
          events := (extend entries w).2.events }) := by
  cases entries with
  | nil => rfl
  | cons entry rest =>
      simp only [extend, List.isEmpty_cons, Bool.false_eq_true, if_false, Task.bind_eq]
      rcases prepareAll (entry :: rest) w with ⟨fault | prepared, w'⟩ <;> rfl

theorem extend_adds (entries : List (Option String × Written)) (w : Workspace) :
    ∃ prepared, (extend entries w).2.registry = w.registry.adding prepared := by
  have kept := (prepareAll_detached entries).registry w
  rw [extend_eq, ← kept]
  rcases prepareAll entries w with ⟨fault | prepared, w'⟩
  · exact ⟨[], rfl⟩
  · exact ⟨prepared, rfl⟩

/-- Several entries are registered at once, or none of them. If one after another they can all be
    registered, then so they can together, and the registry is the same after that. If one of them
    cannot, whatever the fault is, the same fault comes out of registering them together, and the
    registry is what it was before. Both ways make the same rules and the same calls on the way. A
    dictionary is the list of its rows, in which a key that is text is an identifier. Nor does it
    change the registry when a single entry cannot be registered. -/
theorem extend_atomic (w : Workspace) (entries : List (Option String × Written)) :
    let apart := registerAll entries w
    let together := extend entries w
    (∀ names, apart.1 = .ok names →
      together.1 = .ok () ∧ together.2.registry = apart.2.registry) ∧
    (∀ fault, apart.1 = .error fault →
      together.1 = .error fault ∧ together.2.registry = w.registry) ∧
    (together.2.rules = apart.2.rules ∧ together.2.seen = apart.2.seen) ∧
    (∀ rows, ProperKeys rows →
      keyedEntries [] rows = .ok (rows.map fun row => (row.1.identifier?, row.2))) ∧
    ∀ written identifier fault, (register written identifier w).1 = .error fault →
      (register written identifier w).2.registry = w.registry := by
  intro apart together
  have registered := registerAll_registered entries w
  have kept := (prepareAll_detached entries).registry w
  have extended : together = _ := extend_eq entries w
  have outcome : apart.1 = (prepareAll entries w).1.map (·.map (·.1)) := registered.outcome
  have sameRest := registered.rest
  have added := registered.added
  rcases checked : prepareAll entries w with ⟨fault | prepared, w'⟩ <;>
    rw [checked] at extended outcome kept sameRest added
  · refine ⟨?_, ?_, ?_, fun rows => keyedEntries_proper, fun _ _ _ => register_refused⟩
    · intro names given
      exact nomatch outcome.symm.trans given
    · intro other given
      obtain rfl : fault = other := Except.error.inj (outcome.symm.trans given)
      rw [extended]
      exact ⟨rfl, kept⟩
    · rw [extended]
      exact ⟨congrArg (·.rules) sameRest.symm, congrArg (·.seen) sameRest.symm⟩
  · refine ⟨?_, ?_, ?_, fun rows => keyedEntries_proper, fun _ _ _ => register_refused⟩
    · intro names given
      rw [extended]
      refine ⟨rfl, ?_⟩
      rw [show apart.2.registry = _ from added prepared rfl, ← kept]
    · intro fault given
      exact nomatch outcome.symm.trans given
    · rw [extended]
      exact ⟨congrArg (·.rules) sameRest.symm, congrArg (·.seen) sameRest.symm⟩

/-- A class in the place of another one, a class without an identifier, and a class under a new
    one. -/
def Sample.taken : List (Option String × Written) :=
  [(some "max", .ofClass (.rules (.builtIn .min))), (none, .ofClass (.rules (.builtIn .email))),
    (some "least", .ofClass (.rules (.builtIn .min)))]

/-- A class under a new identifier, and a function that faults when it is to make a rule. -/
def Sample.refused : List (Option String × Written) :=
  [(some "least", .ofClass (.rules (.builtIn .min))),
    (none, .callable { id := 0, name := "factory", run := fun _ => .error .notImplemented })]

theorem extend_atomic_sample :
    let w : Workspace := { registry := .standard }
    ((registerAll Sample.taken w).1 = .ok ["max", "email", "least"] ∧
      (extend Sample.taken w).1 = .ok () ∧
      (extend Sample.taken w).2.registry = (registerAll Sample.taken w).2.registry) ∧
    ((registerAll Sample.refused w).1 = .error .notImplemented ∧
      (registerAll Sample.refused w).2.registry.entries.has "least" = true ∧
      (extend Sample.refused w).1 = .error .notImplemented ∧
      (extend Sample.refused w).2.registry = w.registry) := by
  intro w
  have taken : (registerAll Sample.taken w).1 = .ok ["max", "email", "least"] := rfl
  have refused : (registerAll Sample.refused w).1 = .error .notImplemented := rfl
  refine ⟨⟨taken, (extend_atomic w Sample.taken).1 _ taken⟩, refused, rfl, ?_⟩
  exact (extend_atomic w Sample.refused).2.1 _ refused

end Registry

end FieldRules
