import FieldRules.Proofs.Settings.Heap
import FieldRules.Proofs.Settings.Runtime

/-! # Settings whose dictionaries stand apart

As long as no dictionary stands at two places, settings that may share dictionaries come to settings
of trees, and what is added or set with dictionaries of its own is added and set as a tree. So it is
behind every history of operations all of whose dictionaries are new.
-/

namespace FieldRules.Settings

namespace Shared

variable {shared : Shared} {settings : Settings} {places added : Finset Nat} {slot : Slot}
  {key : String} {value : Value}

/-! ## Trees for shared dictionaries -/

/-- Settings of trees are what settings with dictionaries at the given places come to if each of
these stands at one place only. -/
inductive Mirrors (shared : Shared) (places : Finset Nat) : Settings → Prop where
  | of {trees : List (Value × Value)} (holds : shared.heap.HoldsAll shared.roots places trees) :
      Mirrors shared places (shared.dressed trees)

/-- No dictionary stands at two places. -/
def Apart (shared : Shared) : Prop := ∃ places settings, shared.Mirrors places settings

theorem Mirrors.settings? (mirrors : shared.Mirrors places settings) :
    shared.settings? = some settings := by
  obtain ⟨holds⟩ := mirrors
  rw [Shared.settings?, holds.trees?]
  rfl

theorem Mirrors.bounded (mirrors : shared.Mirrors places settings) :
    ∀ place ∈ places, place < shared.heap.length := by
  obtain ⟨holds⟩ := mirrors
  exact holds.bounded

theorem Mirrors.within (mirrors : shared.Mirrors places settings) {heap : Heap}
    {changed : Finset Nat} (within : Heap.Within changed shared.heap heap)
    (apart : Disjoint places changed) : { shared with heap }.Mirrors places settings := by
  obtain ⟨holds⟩ := mirrors
  exact .of (holds.within within apart)

theorem roots_keys (shared : Shared) :
    shared.roots.map (·.1) = shared.holders.map fun holder => .str holder.name := by
  simp [roots]

theorem length_trees {trees : List (Value × Value)}
    (holds : shared.heap.HoldsAll shared.roots places trees) :
    shared.holders.length = trees.length := by
  simpa [roots] using congrArg List.length holds.keys.symm

/-! ## Adding a source -/

theorem roots_append (shared : Shared) (holder : Holder) :
    { shared with holders := shared.holders ++ [holder] }.roots =
      shared.roots ++ [(.str holder.name, holder.root)] := by simp [roots]

theorem dress_append {holders : List Holder} {trees : List (Value × Value)}
    (same : holders.length = trees.length) (holder : Holder) (key tree : Value) :
    dress (holders ++ [holder]) (trees ++ [(key, tree)]) =
      dress holders trees ++ [⟨holder.name, tree, holder.priority⟩] := by
  rw [dress, List.zipWith_append same]
  rfl

/-- To add a source with dictionaries of its own is to add it with its tree. -/
theorem Mirrors.addHolder (mirrors : shared.Mirrors places settings) {holder : Holder}
    {tree : Value} (new : shared.heap.Holds holder.root added tree)
    (apart : Disjoint places added) :
    (shared.addHolder holder).Mirrors (places ∪ added)
      (settings.addSource ⟨holder.name, tree, holder.priority⟩) := by
  obtain ⟨holds⟩ := mirrors
  have later := holds.append new apart (.str holder.name)
  rw [← roots_append] at later
  have shown : (shared.addHolder holder).Mirrors _ _ := .of later
  rw [dressed, Shared.addHolder, changed, dress_append (length_trees holds)] at shown
  exact shown

theorem Mirrors.addSource (mirrors : shared.Mirrors places settings) (source : Source) :
    ∃ places, (shared.addSource source).Mirrors places (settings.addSource source) := by
  obtain ⟨added, new, larger, within⟩ := Heap.make_holds source.tree shared.heap
  have bounded := mirrors.bounded
  refine ⟨places ∪ added, (mirrors.within within (Finset.disjoint_empty_right _)).addHolder new ?_⟩
  grind [Finset.disjoint_left]

/-! ## Setting something -/

theorem lookup?_roots (shared : Shared) : Value.lookup? (.str runtimeName) shared.roots =
    (shared.holders.find? fun holder => holder.name == runtimeName).map (·.root) := by
  have same (holder : Holder) :
      Value.same (.str holder.name) (.str runtimeName) = (holder.name == runtimeName) := by
    simp [Value.same]
  simp [Value.lookup?, roots, List.find?_map, Function.comp_def, same]

theorem setIn_dress {holders : List Holder} {trees : List (Value × Value)} {tree : Value}
    (keys : trees.map (·.1) = holders.map fun holder => .str holder.name)
    (found : Value.lookup? (.str runtimeName) trees = some tree) (key : String) (value : Value) :
    setIn key value (dress holders trees) = (assign value (pathOf key) tree).map fun tree =>
      dress holders (Value.insert (.str runtimeName) tree trees) := by
  induction holders generalizing trees with
  | nil =>
      obtain rfl : trees = [] := by simpa using keys
      nomatch found
  | cons holder holders ih =>
      obtain ⟨⟨name, first⟩, trees, rfl, named, others⟩ := List.map_eq_cons_iff.mp keys
      obtain rfl : name = .str holder.name := named
      have unfolded : dress (holder :: holders) ((.str holder.name, first) :: trees) =
          ⟨holder.name, first, holder.priority⟩ :: dress holders trees := rfl
      rw [Value.lookup?_cons] at found
      rw [unfolded, setIn]
      by_cases own : holder.name = runtimeName
      · obtain rfl : first = tree := by simpa [own, Value.same] using found
        rw [if_pos own]
        cases assign value (pathOf key) first with
        | error => rfl
        | ok tree => simp [Except.map, Value.insert, Value.same_str, own, dress]
      · have below : Value.lookup? (.str runtimeName) trees = some tree := by
          simpa [own, Value.same_str] using found
        rw [if_neg own, ih others below]
        cases assign value (pathOf key) tree with
        | error => rfl
        | ok tree => simp [Except.map, Value.insert, Value.same_str, own, dress]

/-- What is set while running has a source, or it is given one. -/
theorem runtime_cases (shared : Shared) :
    (∃ root, Value.lookup? (.str runtimeName) shared.roots = some root ∧
      shared.runtime = (root, shared)) ∨
    (∀ holder ∈ shared.holders, holder.name ≠ runtimeName) ∧
      shared.runtime = (.dict shared.heap.length, shared.withRuntime) := by
  rw [lookup?_roots, runtime]
  cases found : shared.holders.find? fun holder => holder.name == runtimeName with
  | some holder => exact .inl ⟨holder.root, rfl, rfl⟩
  | none => exact .inr ⟨by simpa using found, rfl⟩

theorem runtime_withRuntime (unset : ∀ holder ∈ shared.holders, holder.name ≠ runtimeName) :
    Value.lookup? (.str runtimeName) shared.withRuntime.roots = some (.dict shared.heap.length) ∧
      shared.withRuntime.runtime = (.dict shared.heap.length, shared.withRuntime) := by
  have found : (shared.withRuntime.holders.find? fun holder => holder.name == runtimeName) =
      some ⟨runtimeName, .dict shared.heap.length, runtimePriority⟩ := by
    have none : (shared.holders.find? fun holder => holder.name == runtimeName) = none := by
      simpa using unset
    simp [withRuntime, List.find?_append, none]
  rw [lookup?_roots, runtime, found]
  exact ⟨rfl, rfl⟩

/-- What is put into what was set while running is put into its tree. -/
theorem Mirrors.put_set (mirrors : shared.Mirrors places settings)
    (new : shared.heap.Holds slot added value) (apart : Disjoint places added) {root : Slot}
    (set : Value.lookup? (.str runtimeName) shared.roots = some root)
    (runtime : shared.runtime = (root, shared)) (key : String) :
    (shared.put key slot).1 = (Settings.put key value settings).1 ∧
      ∃ places, (shared.put key slot).2.Mirrors places (Settings.put key value settings).2 := by
  cases mirrors with
  | @of trees holds =>
      obtain ⟨own, others, rfl, between, at?, instead⟩ := holds.focus (.str runtimeName)
      rw [set] at at?
      obtain ⟨tree, found, inside⟩ := at?.of_some
      obtain ⟨part, rest, path⟩ := List.exists_cons_of_ne_nil (pathOf_ne_nil key)
      have assigned := inside.assign new (by grind [Finset.disjoint_left]) part rest
      have bounded := holds.bounded
      have keys := holds.keys.trans (roots_keys shared)
      simp only [Shared.put, runtime]
      rw [Settings.put_eq, Shared.dressed, setIn_dress keys found, path]
      generalize Settings.assign value (part :: rest) tree = outcome,
        shared.heap.assign slot (part :: rest) root = result at assigned ⊢
      cases assigned with
      | refused fault => exact ⟨rfl, _, .of holds⟩
      | @placed heap places tree holds' inside' within =>
          have stay := within.same (Finset.forall_mem_union.mp bounded).2
            (by grind [Finset.disjoint_left])
          have later := instead stay holds' (by grind [Finset.disjoint_left])
          rw [Value.insert_lookup? set] at later
          exact ⟨rfl, _, .of later⟩

theorem mem_dress {holders : List Holder} {trees : List (Value × Value)} {source : Source}
    (member : source ∈ dress holders trees) : ∃ holder ∈ holders, ∃ entry ∈ trees,
      source = ⟨holder.name, entry.2, holder.priority⟩ := by
  obtain ⟨i, inside, rfl⟩ := List.mem_iff_getElem.mp member
  simp only [dress, List.length_zipWith, Nat.lt_min] at inside
  exact ⟨holders[i], List.getElem_mem inside.1, trees[i], List.getElem_mem inside.2,
    by simp [dress]⟩

theorem Mirrors.withRuntime (mirrors : shared.Mirrors places settings) :
    shared.withRuntime.Mirrors (places ∪ {shared.heap.length})
      { settings with sources := settings.sources ++ [runtimeSource (.dict [])] } := by
  cases mirrors with
  | of holds =>
      have bounded := holds.bounded
      have larger := Heap.Within.append shared.heap [[]]
      have empty : Heap.Holds (shared.heap ++ [[]]) (.dict shared.heap.length) {shared.heap.length}
          (.dict []) := .dict (by simp) .nil (Finset.notMem_empty _)
      have later := (holds.within larger (Finset.disjoint_empty_right _)).append empty
        (by grind [Finset.disjoint_left]) (.str runtimeName)
      have longer : shared.withRuntime.roots =
          shared.roots ++ [(.str runtimeName, .dict shared.heap.length)] := by
        simp [roots, Shared.withRuntime]
      rw [← longer] at later
      have shown : shared.withRuntime.Mirrors _ _ := .of later
      rw [dressed, Shared.withRuntime, dress_append (length_trees holds)] at shown
      exact shown

/-- What is set for the first time is put into an empty tree. -/
theorem put_unset (unset : ∀ source ∈ settings.sources, source.name ≠ runtimeName) (key : String)
    (value : Value) :
    Settings.put key value
        { settings with sources := settings.sources ++ [runtimeSource (.dict [])] } =
      Settings.put key value settings := by
  obtain ⟨part, rest, path⟩ := List.exists_cons_of_ne_nil (pathOf_ne_nil key)
  obtain ⟨tree, assigned⟩ := Heap.assign_empty value part rest
  rw [Settings.put_eq, Settings.put_eq, setIn_unset unset, setIn_set unset, path, assigned]
  rfl

/-- To set something with dictionaries of its own is to set its tree. -/
theorem Mirrors.put (mirrors : shared.Mirrors places settings)
    (new : shared.heap.Holds slot added value) (apart : Disjoint places added) (key : String) :
    (shared.put key slot).1 = (Settings.put key value settings).1 ∧
      ∃ places, (shared.put key slot).2.Mirrors places (Settings.put key value settings).2 := by
  rcases shared.runtime_cases with ⟨root, set, runtime⟩ | ⟨unset, runtime⟩
  · exact mirrors.put_set new apart set runtime key
  · have unset' : ∀ source ∈ settings.sources, source.name ≠ runtimeName := by
      cases mirrors with
      | of holds =>
          intro source member
          obtain ⟨holder, there, entry, -, rfl⟩ := mem_dress member
          exact unset holder there
    have bounded := mirrors.bounded
    have newBounded := new.bounded
    obtain ⟨set, later⟩ := runtime_withRuntime unset
    have same : shared.put key slot = shared.withRuntime.put key slot := by
      simp only [Shared.put, runtime, later]
    have newStays : shared.withRuntime.heap.Holds slot added value :=
      new.within (.append shared.heap [[]]) (Finset.disjoint_empty_right _)
    rw [same, ← put_unset unset']
    exact mirrors.withRuntime.put_set newStays (by grind [Finset.disjoint_left]) set later key

/-! ## Operations with dictionaries of their own -/

/-- What an operation leaves behind all of whose dictionaries are new. -/
def perform (shared : Shared) : Operation → Shared
  | .addSource source => shared.addSource source
  | .loadEnvironment environment =>
    match environmentSource? environment with
    | .ok (some source) => shared.addSource source
    | _ => shared
  | .put key value =>
    let (slot, heap) := shared.heap.make value
    ({ shared with heap }.put key slot).2
  | operation =>
    match shared.settings? with
    | some settings => { shared with memory := operation.perform settings }
    | none => shared

theorem Mirrors.remember (mirrors : shared.Mirrors places settings) {memory : Settings}
    (same : memory.sources = settings.sources) :
    { shared with memory }.Mirrors places memory := by
  cases mirrors with
  | @of trees holds =>
      obtain ⟨sources, merged, cache, dirty⟩ := memory
      obtain rfl : sources = dress shared.holders trees := same
      exact .of holds

/-- Such an operation does what it does to trees. -/
theorem Mirrors.perform (mirrors : shared.Mirrors places settings) (sound : settings.Sound)
    (operation : Operation) :
    ∃ places, (shared.perform operation).Mirrors places (operation.perform settings) := by
  cases operation with
  | addSource source => exact mirrors.addSource source
  | loadEnvironment environment =>
      simp only [Shared.perform, Operation.perform, loadEnvironment_eq]
      rcases environmentSource? environment with fault | (_ | source)
      · exact ⟨places, mirrors⟩
      · exact ⟨places, mirrors⟩
      · exact mirrors.addSource source
  | put key value =>
      obtain ⟨added, new, larger, within⟩ := Heap.make_holds value shared.heap
      have bounded := mirrors.bounded
      have stays := mirrors.within within (Finset.disjoint_empty_right _)
      exact (stays.put new (by grind [Finset.disjoint_left]) key).2
  | _ =>
      simp only [Shared.perform, mirrors.settings?]
      exact ⟨places, mirrors.remember (Operation.perform_sound sound _).2⟩

theorem ofSettings_mirrors (settings : Settings) :
    ∃ places, (ofSettings settings).Mirrors places settings := by
  have added (sources : List Source) {shared : Shared} {before : Settings} {places : Finset Nat}
      (mirrors : shared.Mirrors places before) : ∃ places, (sources.foldl addSource shared).Mirrors
        places (sources.foldl Settings.addSource before) := by
    induction sources generalizing shared before places with
    | nil => exact ⟨places, mirrors⟩
    | cons source rest ih =>
        obtain ⟨places, next⟩ := mirrors.addSource source
        exact ih next
  have sources (sources : List Source) (before : Settings) :
      (sources.foldl Settings.addSource before).sources = before.sources ++ sources := by
    induction sources generalizing before with
    | nil => simp
    | cons source rest ih => simp [ih, Settings.addSource]
  have empty : ({} : Shared).Mirrors ∅ {} := .of .nil
  obtain ⟨places, mirrors⟩ := added settings.sources empty
  exact ⟨places, mirrors.remember (by simp [sources])⟩

end Shared

end FieldRules.Settings
