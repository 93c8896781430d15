import FieldRules.Proofs.Registry.Extending
import FieldRules.Proofs.Registry.Tables
import Mathlib.Data.List.DropRight

/-! # What a registry remembers of its rule strings

A registry keeps a rule string from the first call that can read it until all strings are forgotten.
What has been registered since makes no difference to it, while a string that could not be read is
read anew each time. `after_cache` says so for whole histories: the induction is over the operations
from the first to the last, and its step is that one operation adds at most what it has read.
-/

namespace FieldRules

namespace Registry

/-! ## One call -/

variable {w : Workspace}

/-- A call keeps what it has read, and only if it had to be read. -/
theorem tokens_cache (spec other : String) (w : Workspace) :
    (tokens spec w).2.registry.cache.get? other =
      (w.registry.cache.get? other).or
        (if spec == other then (w.registry.tokenize other).toOption else none) := by
  cases cached : w.registry.cache.get? spec with
  | some kept =>
      rw [tokens_cached cached]
      by_cases same : spec = other
      · subst same
        simp [cached]
      · simp [same]
  | none =>
      rw [tokens_uncached cached]
      by_cases same : spec = other
      · subst same
        cases w.registry.tokenize spec <;> simp [cached, Keyed.get?_put, Except.toOption]
      · have different : ¬other = spec := fun there => same there.symm
        cases w.registry.tokenize spec <;> simp [same, different, Keyed.get?_put]

theorem tokens_entries (spec : String) (w : Workspace) :
    (tokens spec w).2.registry.entries = w.registry.entries := by
  cases cached : w.registry.cache.get? spec with
  | some kept => rw [tokens_cached cached]
  | none =>
      rw [tokens_uncached cached]
      cases w.registry.tokenize spec <;> rfl

theorem parse_registry (spec : String) (w : Workspace) :
    (parse spec w).2.registry = (tokens spec w).2.registry := by
  simp only [parse, Task.bind_eq]
  rcases tokens spec w with ⟨fault | read, w'⟩
  · rfl
  · exact (buildTokens_detached read).registry w'

/-! ## Histories -/

/-- What can be done with a registry and with rule strings. -/
inductive Operation where
  | register (written : Written) (identifier : Option String)
  | extend (entries : List (Option String × Written))
  | parse (spec : String)
  /-- Asks for the tokens only. -/
  | read (spec : String)
  /-- Forgets the rule strings that were read. -/
  | clear

namespace Operation

/-- What an operation leaves behind, whether it succeeds or faults. -/
def perform (w : Workspace) : Operation → Workspace
  | register written identifier => (Registry.register written identifier w).2
  | extend entries => (Registry.extend entries w).2
  | parse spec => (Registry.parse spec w).2
  | read spec => (tokens spec w).2
  | clear => (change clearCache w).2

/-- Whether an operation asks for the tokens of a rule string. -/
def asksFor (spec : String) : Operation → Bool
  | parse asked | read asked => asked == spec
  | _ => false

/-- Whether an operation forgets what was read. -/
def clears : Operation → Bool
  | clear => true
  | _ => false

/-- One operation keeps at most what it has read itself. -/
theorem perform_cache (operation : Operation) (spec : String) (w : Workspace) :
    (operation.perform w).registry.cache.get? spec =
      if operation.clears then none
      else (w.registry.cache.get? spec).or
        (if operation.asksFor spec then (w.registry.tokenize spec).toOption else none) := by
  cases operation with
  | register written identifier =>
      obtain ⟨prepared, added⟩ := register_adds written identifier w
      simp [perform, clears, asksFor, added, adding]
  | extend entries =>
      obtain ⟨prepared, added⟩ := extend_adds entries w
      simp [perform, clears, asksFor, added, adding]
  | parse asked =>
      have kept := tokens_cache asked spec w
      rw [← parse_registry] at kept
      exact kept
  | read asked => exact tokens_cache asked spec w
  | clear => rfl

/-- No operation takes an entry out of a registry. -/
theorem perform_adds (operation : Operation) (w : Workspace) :
    ∃ prepared, (operation.perform w).registry.entries = w.registry.entries.putAll prepared := by
  cases operation with
  | register written identifier =>
      obtain ⟨prepared, added⟩ := register_adds written identifier w
      exact ⟨prepared, congrArg (·.entries) added⟩
  | extend entries =>
      obtain ⟨prepared, added⟩ := extend_adds entries w
      exact ⟨prepared, congrArg (·.entries) added⟩
  | parse spec =>
      refine ⟨[], ?_⟩
      rw [perform, parse_registry]
      exact tokens_entries spec w
  | read spec => exact ⟨[], tokens_entries spec w⟩
  | clear => exact ⟨[], rfl⟩

end Operation

/-- The workspace behind a history of operations. -/
def after (w : Workspace) (history : List Operation) : Workspace :=
  history.foldl Operation.perform w

/-- The operations of a history, each with the registry that it finds. -/
def moments (w : Workspace) : List Operation → List (Operation × Registry)
  | [] => []
  | operation :: rest => (operation, w.registry) :: moments (operation.perform w) rest

/-- The moments of a history since what was read was last forgotten. -/
def momentsKept (w : Workspace) (history : List Operation) : List (Operation × Registry) :=
  (moments w history).rtakeWhile fun moment => !moment.1.clears

/-- What has been read of a rule string by the first call that could read it. -/
def firstReading (spec : String) (moments : List (Operation × Registry)) : Option (List Token) :=
  moments.findSome? fun (operation, registry) =>
    if operation.asksFor spec then (registry.tokenize spec).toOption else none

theorem after_append (w : Workspace) (first second : List Operation) :
    after w (first ++ second) = after (after w first) second :=
  List.foldl_append

theorem moments_append (w : Workspace) (first second : List Operation) :
    moments w (first ++ second) = moments w first ++ moments (after w first) second := by
  induction first generalizing w with
  | nil => rfl
  | cons operation rest ih => exact congrArg (_ :: ·) (ih (operation.perform w))

/-- Behind a history a registry keeps what the first calls have read. -/
theorem after_cache (fresh : w.registry.cache = []) (history : List Operation) (spec : String) :
    (after w history).registry.cache.get? spec = firstReading spec (momentsKept w history) := by
  induction history using List.reverseRecOn with
  | nil => simp [after, fresh, Keyed.get?_nil, momentsKept, moments, firstReading]
  | append_singleton history operation ih =>
      have last : after w (history ++ [operation]) = operation.perform (after w history) :=
        after_append w history [operation]
      have lastMoment : moments w (history ++ [operation]) =
          moments w history ++ [(operation, (after w history).registry)] :=
        moments_append w history [operation]
      rw [last, Operation.perform_cache, ih]
      simp only [momentsKept, lastMoment, List.rtakeWhile_concat]
      by_cases cleared : operation.clears = true
      · simp [cleared, firstReading]
      · simp [cleared, firstReading, List.findSome?_append]

/-- What is kept stays the same until all strings are forgotten. -/
theorem after_kept {spec : String} {kept : List Token}
    (cached : w.registry.cache.get? spec = some kept) {history : List Operation}
    (uncleared : ∀ operation ∈ history, operation.clears = false) :
    (after w history).registry.cache.get? spec = some kept := by
  induction history generalizing w with
  | nil => exact cached
  | cons operation rest ih =>
      obtain ⟨first, others⟩ := List.forall_mem_cons.mp uncleared
      refine ih ?_ others
      simp [Operation.perform_cache, first, cached]

/-- A call that gives tokens leaves them behind, even if the rules cannot be made then. -/
theorem perform_kept {spec : String} {read : List Token}
    (given : (tokens spec w).1 = .ok read) {call : Operation} (asks : call.asksFor spec = true) :
    (call.perform w).registry.cache.get? spec = some read := by
  have lasting : call.clears = false := by
    cases call with
    | parse | read => rfl
    | register | extend | clear => simp [Operation.asksFor] at asks
  rw [tokens_outcome] at given
  rw [Operation.perform_cache, lasting, asks]
  cases cached : w.registry.cache.get? spec with
  | some kept => simpa [cached] using given
  | none =>
      rw [cached] at given
      simp only at given
      simp [given, Except.toOption]

/-- A call that faults because a string cannot be read leaves nothing behind. -/
theorem perform_unread {spec : String} {fault : Fault}
    (faulted : (tokens spec w).1 = .error fault) {call : Operation}
    (asks : call.asksFor spec = true) :
    (call.perform w).registry.cache = w.registry.cache := by
  have same : (tokens spec w).2.registry.cache = w.registry.cache := by
    cases cached : w.registry.cache.get? spec with
    | some kept => simp [tokens_cached cached] at faulted
    | none =>
        rw [tokens_uncached cached] at faulted ⊢
        cases tokenized : w.registry.tokenize spec with
        | error fault => rfl
        | ok read => simp [tokenized] at faulted
  cases call with
  | parse asked =>
      obtain rfl := eq_of_beq asks
      exact (congrArg (·.cache) (parse_registry asked w)).trans same
  | read asked =>
      obtain rfl := eq_of_beq asks
      exact same
  | register | extend | clear => simp [Operation.asksFor] at asks

/-- The tokens of a rule string behind a history of operations. They are those of the first call
    that could read the string since what was read was last forgotten, with the makers that were
    registered at that moment; without such a call the string is read by the entries as they are
    now. A call that faults over reading leaves nothing behind, so that the string can be read once
    its identifiers are registered. A call that reads the string leaves its tokens behind, whether
    or not their rules can be made, and then nothing but forgetting changes them. -/
theorem tokens_remembered (fresh : w.registry.cache = []) (history : List Operation)
    (spec : String) :
    let now := after w history
    ((tokens spec now).1 =
      match firstReading spec (momentsKept w history) with
      | some kept => .ok kept
      | none => now.registry.tokenize spec) ∧
    (∀ kept, firstReading spec (momentsKept w history) = some kept →
      ∃ moment ∈ momentsKept w history, moment.1.asksFor spec = true ∧
        moment.2.tokenize spec = .ok kept ∧
        ∀ token ∈ kept, moment.2.entries.get? token.identifier = some token.factory) ∧
    (∀ fault, (tokens spec now).1 = .error fault →
      ((∃ defect position, fault = .malformedRuleString spec defect position) ∨
        ∃ identifier, fault = .unknownRule identifier) ∧
      ∀ call : Operation, call.asksFor spec = true →
        (call.perform now).registry.cache = now.registry.cache) ∧
    ((∀ identifier ∈ identifiersOf spec,
        identifier ≠ "" ∧ now.registry.entries.has identifier = true) →
      ∃ read, (tokens spec now).1 = .ok read) ∧
    ∀ read, (tokens spec now).1 = .ok read → ∀ (call : Operation) (more : List Operation),
      call.asksFor spec = true → (∀ operation ∈ more, operation.clears = false) →
        (tokens spec (after now (call :: more))).1 = .ok read := by
  intro now
  have outcome := tokens_outcome spec now
  refine ⟨?_, ?_, ?_, ?_, ?_⟩
  · have kept : now.registry.cache.get? spec = _ := after_cache fresh history spec
    rw [outcome]
    cases first : firstReading spec (momentsKept w history) <;> simp only [kept, first]
  · intro kept given
    obtain ⟨moment, member, reading⟩ := List.exists_of_findSome?_eq_some given
    simp only [Option.ite_none_right_eq_some] at reading
    obtain ⟨asks, reading⟩ := reading
    have tokenized : moment.2.tokenize spec = .ok kept := by
      cases ran : moment.2.tokenize spec with
      | error fault => simp [ran, Except.toOption] at reading
      | ok read => simpa [ran, Except.toOption] using reading
    exact ⟨moment, member, asks, tokenized, Token.readAll_factory tokenized⟩
  · intro fault faulted
    refine ⟨?_, fun call asks => perform_unread faulted asks⟩
    rw [outcome] at faulted
    cases cached : now.registry.cache.get? spec with
    | some kept => simp [cached] at faulted
    | none =>
        rw [cached] at faulted
        exact Token.readAll_fault faulted
  · intro registered
    rw [outcome]
    cases now.registry.cache.get? spec with
    | some kept => exact ⟨kept, rfl⟩
    | none => exact tokenize_ok_iff.mpr registered
  · intro read given call more asks uncleared
    have kept := after_kept (perform_kept given asks) uncleared
    rw [tokens_outcome, after, List.foldl_cons, ← after, kept]

/-- A string that cannot be read at first, then names a rule that cannot be made, and then keeps its
    maker when the identifier gets another one. -/
def Sample.rereading : List Operation :=
  [.read "size", .register (.ofClass (.rules (.builtIn .min))) (some "size"), .parse "size",
    .register (.ofClass (.rules (.builtIn .max))) (some "size")]

theorem tokens_remembered_sample :
    (tokens "size" (after {} Sample.rereading)).1 =
        .ok [⟨"size", [], .ofClass (.builtIn .min)⟩] ∧
      (tokens "size" (after {} (Sample.rereading ++ [.clear]))).1 =
        .ok [⟨"size", [], .ofClass (.builtIn .max)⟩] := by
  have remembered := (tokens_remembered (w := {}) rfl Sample.rereading "size").1
  have forgotten := (tokens_remembered (w := {}) rfl (Sample.rereading ++ [.clear]) "size").1
  exact ⟨remembered.trans (by rfl), forgotten.trans (by rfl)⟩

end Registry

end FieldRules
