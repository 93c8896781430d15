import FieldRules.Proofs.Registry.Effects
import FieldRules.Proofs.Registry.Outcomes
import Mathlib.Data.List.Dedup

/-! # The counters of a registry

A registry counts how often it was asked for a string that it keeps, and how often for one that it
does not keep. What a call counts is settled before its outcome is known, while a string is kept
only once it has been read, whatever becomes of its rules. `Accounted` says how the counters and the
kept strings stand to the calls so far; one more operation carries it on, and so it holds behind
every history.
-/

namespace FieldRules

/-- The fault that an operation ends with, if it does not succeed. -/
def Outcome.fault? {α : Type} : Outcome α → Option Fault
  | .ok _ => none
  | .error fault => some fault

namespace Registry

/-! ## Calls -/

/-- A call for the rules of a string, or only for its tokens, with the workspace that it finds. -/
structure Call where
  spec : String
  makesRules : Bool
  found : Workspace

namespace Call

/-- What the string of a call means at its moment. -/
def reading (call : Call) : Outcome (List Token) := call.found.registry.reading call.spec

/-- Whether a call comes to the tokens of its string. -/
def resolves (call : Call) : Bool := call.reading.isOk

/-- The fault that a call raises, if it does not succeed. -/
def fault? (call : Call) : Option Fault :=
  if call.makesRules then Outcome.fault? (parse call.spec call.found).1
  else Outcome.fault? (tokens call.spec call.found).1

theorem resolves_eq_false {call : Call} :
    call.resolves = false ↔ ∃ fault, call.reading = .error fault := by
  rw [resolves]
  cases call.reading <;> simp [Except.isOk, Except.toBool]

theorem resolves_eq_true {call : Call} :
    call.resolves = true ↔ ∃ read, call.reading = .ok read := by
  rw [resolves]
  cases call.reading <;> simp [Except.isOk, Except.toBool]

end Call

/-! ## One operation -/

/-- The call that an operation is, if it asks for a string. -/
def Operation.call? (w : Workspace) : Operation → Option Call
  | parse spec => some ⟨spec, true, w⟩
  | read spec => some ⟨spec, false, w⟩
  | register .. | extend _ | clear => none

/-- How the counters of a registry and the strings that it keeps stand to the calls for strings. -/
structure Accounted (calls : List Call) (registry : Registry) : Prop where
  distinct : registry.cache.names.Nodup
  kept (spec : String) : registry.cache.has spec = true ↔
    ∃ call ∈ calls, call.spec = spec ∧ call.resolves = true
  total : registry.hits + registry.misses = calls.length
  missed : registry.misses = registry.cache.length + calls.countP fun call => !call.resolves

namespace Accounted

variable {calls : List Call} {registry : Registry} {w : Workspace}

/-- What does nothing to the cache and its counters changes no account. -/
theorem congr (accounted : Accounted calls registry) {registry' : Registry}
    (cache : registry'.cache = registry.cache) (hits : registry'.hits = registry.hits)
    (misses : registry'.misses = registry.misses) : Accounted calls registry' := by
  obtain ⟨distinct, kept, total, missed⟩ := accounted
  rw [← cache] at distinct kept missed
  rw [← misses] at total missed
  rw [← hits] at total
  exact ⟨distinct, kept, total, missed⟩

theorem cleared (registry : Registry) : Accounted [] registry.clearCache where
  distinct := List.nodup_nil
  kept spec := by simp [clearCache, Keyed.has, Keyed.get?_nil]
  total := rfl
  missed := rfl

theorem exists_concat {call : Call} {holds : Call → Prop} :
    (∃ other ∈ calls ++ [call], holds other) ↔ (∃ other ∈ calls, holds other) ∨ holds call := by
  simp only [List.mem_append, List.mem_singleton, or_and_right, exists_or, exists_eq_left]

/-- A call for a string that is kept adds to the hits only. -/
theorem hit (accounted : Accounted calls w.registry) {call : Call} (here : call.found = w)
    {kept : List Token} (cached : w.registry.cache.get? call.spec = some kept) :
    Accounted (calls ++ [call]) { w.registry with hits := w.registry.hits + 1 } := by
  have resolved : call.resolves = true :=
    Call.resolves_eq_true.mpr ⟨kept, by simp [Call.reading, reading, here, cached]⟩
  have present : w.registry.cache.has call.spec = true := by simp [Keyed.has, cached]
  refine ⟨accounted.distinct, fun spec => ?_, ?_, ?_⟩
  · rw [exists_concat, ← accounted.kept]
    exact (or_iff_left_of_imp fun same => same.1 ▸ present).symm
  · have total := accounted.total
    simp only [List.length_append, List.length_singleton]
    omega
  · simpa [resolved] using accounted.missed

/-- A call for a string that is not kept adds to the misses, and keeps the string if it is read. -/
theorem miss (accounted : Accounted calls w.registry) {call : Call} (here : call.found = w)
    (uncached : w.registry.cache.get? call.spec = none) :
    Accounted (calls ++ [call]) (w.registry.asked call.spec) := by
  have meaning : call.reading = w.registry.tokenize call.spec := by
    simp [Call.reading, reading, here, uncached]
  have absent : call.spec ∉ w.registry.cache.names := Keyed.get?_eq_none.mp uncached
  have total := accounted.total
  have missed := accounted.missed
  simp only [asked, uncached]
  cases read : w.registry.tokenize call.spec with
  | error fault =>
      have unresolved : call.resolves = false :=
        Call.resolves_eq_false.mpr ⟨fault, meaning.trans read⟩
      refine ⟨accounted.distinct, fun spec => ?_, ?_, ?_⟩
      · rw [exists_concat, ← accounted.kept]
        simp [unresolved]
      · simp only [List.length_append, List.length_singleton]
        omega
      · simp only [List.countP_append, List.countP_singleton, unresolved, Bool.not_false, if_true]
        omega
  | ok tokens =>
      have resolved : call.resolves = true :=
        Call.resolves_eq_true.mpr ⟨tokens, meaning.trans read⟩
      have names : (w.registry.cache.put call.spec tokens).names =
          w.registry.cache.names ++ [call.spec] := by
        rw [Keyed.names_put, if_neg absent]
      refine ⟨?_, fun spec => ?_, ?_, ?_⟩
      · rw [names]
        exact List.nodup_append.mpr ⟨accounted.distinct, List.nodup_singleton _, by
          rintro name member other last same
          obtain rfl := List.mem_singleton.mp last
          exact absent (same ▸ member)⟩
      · rw [exists_concat, ← accounted.kept, Keyed.has_iff, Keyed.has_iff, names,
          List.mem_append, List.mem_singleton]
        simp [resolved, eq_comm]
      · simp only [List.length_append, List.length_singleton]
        omega
      · have size : (w.registry.cache.put call.spec tokens).length =
            w.registry.cache.length + 1 := by
          rw [Keyed.put_of_not_mem absent, List.length_append, List.length_singleton]
        simp only [List.countP_append, List.countP_singleton, resolved, Bool.not_true, size]
        simp only [Bool.false_eq_true, if_false]
        omega

/-- Asking for a string settles what the call counts. -/
theorem asking (accounted : Accounted calls w.registry) {call : Call} (here : call.found = w) :
    Accounted (calls ++ [call]) (w.registry.asked call.spec) := by
  cases cached : w.registry.cache.get? call.spec with
  | none => exact accounted.miss here cached
  | some kept =>
      simp only [asked, cached]
      exact accounted.hit here cached

/-- One operation carries the account on. -/
theorem perform (accounted : Accounted calls w.registry) (operation : Operation) :
    Accounted (if operation.clears then [] else calls ++ (operation.call? w).toList)
      (operation.perform w).registry := by
  cases operation with
  | register written identifier =>
      obtain ⟨prepared, added⟩ := register_adds written identifier w
      simp only [Operation.perform, added, Operation.clears, Operation.call?, Option.toList_none,
        List.append_nil, Bool.false_eq_true, if_false]
      exact accounted.congr rfl rfl rfl
  | extend entries =>
      obtain ⟨prepared, added⟩ := extend_adds entries w
      simp only [Operation.perform, added, Operation.clears, Operation.call?, Option.toList_none,
        List.append_nil, Bool.false_eq_true, if_false]
      exact accounted.congr rfl rfl rfl
  | parse spec =>
      have same : (Operation.perform w (.parse spec)).registry = w.registry.asked spec :=
        (parse_registry spec w).trans (tokens_asked spec w)
      rw [same]
      exact @asking _ _ accounted ⟨spec, true, w⟩ rfl
  | read spec =>
      rw [Operation.perform, tokens_asked]
      exact @asking _ _ accounted ⟨spec, false, w⟩ rfl
  | clear => exact cleared w.registry

end Accounted

/-! ## Histories -/

/-- A registry that was asked for no string yet. -/
structure Unasked (registry : Registry) : Prop where
  cache : registry.cache = []
  hits : registry.hits = 0
  misses : registry.misses = 0

theorem Unasked.accounted {registry : Registry} (unasked : registry.Unasked) :
    Accounted [] registry :=
  (Accounted.cleared registry).congr unasked.cache unasked.hits unasked.misses

end Registry

end FieldRules
