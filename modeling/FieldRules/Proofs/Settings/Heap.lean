import FieldRules.Proofs.Settings.Placing
import FieldRules.Settings.Shared
import Mathlib.Data.Finset.Card

/-! # Trees in a heap of dictionaries

A slot holds a tree if the dictionaries of the tree are found from it, each at a place of its own.
Where that is so, to put something at the end of a path in the heap is to put it at the end of the
path in the tree, and nothing changes in the dictionaries at other places.
-/

namespace FieldRules.Settings.Heap

variable {heap heap' : Heap}

/-! ## What is held -/

mutual

/-- A slot holds a tree, whose dictionaries are at some places, no two of them at the same. -/
inductive Holds (heap : Heap) : Slot → Finset Nat → Value → Prop where
  | leaf {value : Value} (plain : ∀ entries, value ≠ .dict entries) :
      Holds heap (.leaf value) ∅ value
  | dict {place : Nat} {cell : List (Value × Slot)} {places : Finset Nat}
      {entries : List (Value × Value)} (there : heap[place]? = some cell)
      (inner : HoldsAll heap cell places entries) (apart : place ∉ places) :
      Holds heap (.dict place) (insert place places) (.dict entries)

/-- The slots of a dictionary hold the trees of its entries, at places apart from each other. -/
inductive HoldsAll (heap : Heap) :
    List (Value × Slot) → Finset Nat → List (Value × Value) → Prop where
  | nil : HoldsAll heap [] ∅ []
  | cons {key value : Value} {slot : Slot} {cell : List (Value × Slot)} {first others : Finset Nat}
      {entries : List (Value × Value)} (here : Holds heap slot first value)
      (rest : HoldsAll heap cell others entries) (apart : Disjoint first others) :
      HoldsAll heap ((key, slot) :: cell) (first ∪ others) ((key, value) :: entries)

end

mutual

/-- What is held at some places stays if other places change. -/
theorem Holds.frame {slot : Slot} {places : Finset Nat} {tree : Value}
    (holds : heap.Holds slot places tree)
    (same : ∀ place ∈ places, heap'[place]? = heap[place]?) : heap'.Holds slot places tree := by
  cases holds with
  | leaf plain => exact .leaf plain
  | dict there inner apart =>
      obtain ⟨here, below⟩ := Finset.forall_mem_insert _ _ _ |>.mp same
      exact .dict (here.trans there) (inner.frame below) apart

theorem HoldsAll.frame {cell : List (Value × Slot)} {places : Finset Nat}
    {entries : List (Value × Value)} (holds : heap.HoldsAll cell places entries)
    (same : ∀ place ∈ places, heap'[place]? = heap[place]?) :
    heap'.HoldsAll cell places entries := by
  cases holds with
  | nil => exact .nil
  | cons here rest apart =>
      obtain ⟨first, others⟩ := Finset.forall_mem_union.mp same
      exact .cons (here.frame first) (rest.frame others) apart

end

mutual

theorem Holds.bounded {slot : Slot} {places : Finset Nat} {tree : Value}
    (holds : heap.Holds slot places tree) :
    ∀ place ∈ places, place < heap.length := by
  cases holds with
  | leaf => exact nofun
  | dict there inner =>
      exact Finset.forall_mem_insert _ _ _ |>.mpr
        ⟨(List.getElem?_eq_some_iff.mp there).1, inner.bounded⟩

theorem HoldsAll.bounded {cell : List (Value × Slot)} {places : Finset Nat}
    {entries : List (Value × Value)} (holds : heap.HoldsAll cell places entries) :
    ∀ place ∈ places, place < heap.length := by
  cases holds with
  | nil => exact nofun
  | cons here rest => exact Finset.forall_mem_union.mpr ⟨here.bounded, rest.bounded⟩

end

mutual

/-- Reading comes to an end within as many dictionaries as there are below a slot. -/
theorem Holds.read? {slot : Slot} {places : Finset Nat} {tree : Value}
    (holds : heap.Holds slot places tree) {depth : Nat}
    (deep : places.card ≤ depth) : heap.read? depth slot = some tree := by
  cases holds with
  | leaf => cases depth <;> rfl
  | dict there inner apart =>
      rw [Finset.card_insert_of_notMem apart] at deep
      obtain ⟨depth, rfl⟩ := Nat.exists_eq_add_of_le' (Nat.one_le_of_lt deep)
      have below := inner.mapM_read? (Nat.le_of_succ_le_succ deep)
      simp only [Heap.read?, there, Option.bind_eq_bind, Option.bind_some] at below ⊢
      rw [below]
      rfl

theorem HoldsAll.mapM_read? {cell : List (Value × Slot)} {places : Finset Nat}
    {entries : List (Value × Value)} (holds : heap.HoldsAll cell places entries) {depth : Nat}
    (deep : places.card ≤ depth) :
    (cell.mapM fun entry => do return (entry.1, ← heap.read? depth entry.2)) = some entries := by
  cases holds with
  | nil => rfl
  | cons here rest apart =>
      rw [Finset.card_union_of_disjoint apart] at deep
      rw [List.mapM_cons, here.read? (by omega), rest.mapM_read? (by omega)]
      rfl

end

/-- What slots hold is what begins in them. -/
theorem HoldsAll.trees? {cell : List (Value × Slot)} {places : Finset Nat}
    {entries : List (Value × Value)} (holds : heap.HoldsAll cell places entries) :
    heap.trees? cell = some entries := by
  have inside : places ⊆ Finset.range heap.length :=
    fun place member => Finset.mem_range.mpr (holds.bounded place member)
  exact holds.mapM_read? (by simpa using Finset.card_le_card inside)

/-- The keys of every dictionary are distinct. -/
def Tidy (heap : Heap) : Prop := ∀ cell ∈ heap, Value.Distinct cell

theorem HoldsAll.append {cell : List (Value × Slot)} {places added : Finset Nat}
    {entries : List (Value × Value)} (holds : heap.HoldsAll cell places entries) {slot : Slot}
    {value : Value} (new : heap.Holds slot added value) (apart : Disjoint places added)
    (key : Value) :
    heap.HoldsAll (cell ++ [(key, slot)]) (places ∪ added) (entries ++ [(key, value)]) := by
  cases holds with
  | nil =>
      rw [Finset.union_comm]
      exact .cons new .nil (Finset.disjoint_empty_right _)
  | cons here rest between =>
      obtain ⟨first, others⟩ := Finset.disjoint_union_left.mp apart
      rw [Finset.union_assoc]
      exact .cons here (rest.append new others key)
        (Finset.disjoint_union_right.mpr ⟨between, first⟩)

theorem HoldsAll.keys {cell : List (Value × Slot)} {places : Finset Nat}
    {entries : List (Value × Value)} (holds : heap.HoldsAll cell places entries) :
    entries.map (·.1) = cell.map (·.1) := by
  cases holds with
  | nil => rfl
  | cons here rest => rw [List.map_cons, List.map_cons, rest.keys]

mutual

theorem Holds.tidy {slot : Slot} {places : Finset Nat} {tree : Value}
    (holds : heap.Holds slot places tree) (tidy : heap.Tidy) : tree.Tidy := by
  cases holds with
  | leaf plain => exact .leaf plain
  | dict there inner =>
      have distinct := Value.distinct_keys.mp (tidy _ (List.mem_of_getElem? there))
      rw [← inner.keys] at distinct
      exact .tree (Value.distinct_keys.mpr distinct) (inner.tidy tidy)

theorem HoldsAll.tidy {cell : List (Value × Slot)} {places : Finset Nat}
    {entries : List (Value × Value)} (holds : heap.HoldsAll cell places entries)
    (tidy : heap.Tidy) : ∀ entry ∈ entries, entry.2.Tidy := by
  cases holds with
  | nil => exact nofun
  | cons here rest => exact List.forall_mem_cons.mpr ⟨here.tidy tidy, rest.tidy tidy⟩

end

/-- What is held at a key, if anything stands there. -/
inductive HoldsAt (heap : Heap) : Option Slot → Finset Nat → Option Value → Prop where
  | absent : HoldsAt heap none ∅ none
  | present {slot : Slot} {places : Finset Nat} {tree : Value}
      (holds : heap.Holds slot places tree) : HoldsAt heap (some slot) places (some tree)

theorem HoldsAt.of_some {slot : Slot} {places : Finset Nat} {found : Option Value}
    (holds : heap.HoldsAt (some slot) places found) :
    ∃ tree, found = some tree ∧ heap.Holds slot places tree := by
  cases holds with
  | present holds => exact ⟨_, rfl, holds⟩

theorem HoldsAt.of_none {places : Finset Nat} {found : Option Value}
    (holds : heap.HoldsAt none places found) : found = none ∧ places = ∅ := by
  cases holds with
  | absent => exact ⟨rfl, rfl⟩

/-- What a dictionary holds at one key is apart from what it holds at the others, and whatever comes
in its place, and stays apart from them, is held there instead. -/
theorem HoldsAll.focus {cell : List (Value × Slot)} {places : Finset Nat}
    {entries : List (Value × Value)} (holds : heap.HoldsAll cell places entries) (key : Value) :
    ∃ own others, places = own ∪ others ∧ Disjoint own others ∧
      heap.HoldsAt (Value.lookup? key cell) own (Value.lookup? key entries) ∧
      ∀ {heap' : Heap} {slot : Slot} {added : Finset Nat} {value : Value},
        (∀ place ∈ others, heap'[place]? = heap[place]?) → heap'.Holds slot added value →
        Disjoint added others →
        heap'.HoldsAll (Value.insert key slot cell) (added ∪ others)
          (Value.insert key value entries) := by
  cases holds with
  | nil => exact ⟨∅, ∅, by simp, by simp, .absent, fun _ new apart => .cons new .nil apart⟩
  | @cons name value slot cell first rest entries here later apart =>
      cases same : Value.same name key with
      | true =>
          refine ⟨first, rest, rfl, apart, ?_, fun stay new apart' => ?_⟩
          · rw [Value.lookup?_cons, Value.lookup?_cons, if_pos same, if_pos same]
            exact .present here
          · rw [Value.insert, Value.insert, if_pos same, if_pos same]
            exact .cons new (later.frame stay) apart'
      | false =>
          obtain ⟨own, others, rfl, apartRest, at?, instead⟩ := later.focus key
          obtain ⟨firstOwn, firstOthers⟩ := Finset.disjoint_union_right.mp apart
          refine ⟨own, first ∪ others, Finset.union_left_comm .., ?_, ?_, fun stay new apart' => ?_⟩
          · exact Finset.disjoint_union_right.mpr ⟨firstOwn.symm, apartRest⟩
          · simpa [Value.lookup?_cons, same] using at?
          · obtain ⟨stayFirst, stayOthers⟩ := Finset.forall_mem_union.mp stay
            obtain ⟨newFirst, newOthers⟩ := Finset.disjoint_union_right.mp apart'
            rw [Finset.union_left_comm]
            simp only [Value.insert, same, Bool.false_eq_true, if_false]
            refine .cons (here.frame stayFirst) (instead stayOthers new newOthers) ?_
            exact Finset.disjoint_union_right.mpr ⟨newFirst.symm, firstOthers⟩

/-! ## Changes of a heap -/

/-- A heap comes from another one by changes at some places only, and by new dictionaries. -/
structure Within (changed : Finset Nat) (heap heap' : Heap) : Prop where
  grown : heap.length ≤ heap'.length
  others : ∀ place < heap.length, place ∉ changed → heap'[place]? = heap[place]?

namespace Within

variable {changed more : Finset Nat}

theorem refl (changed : Finset Nat) (heap : Heap) : Within changed heap heap :=
  ⟨Nat.le_refl _, fun _ _ _ => rfl⟩

theorem set (heap : Heap) (place : Nat) (cell : List (Value × Slot)) :
    Within {place} heap (heap.set place cell) where
  grown := (List.length_set ..).ge
  others other _ apart := List.getElem?_set_ne fun same => apart (by simp [same])

theorem append (heap new : Heap) : Within ∅ heap (heap ++ new) where
  grown := by simp
  others _ old _ := List.getElem?_append_left old

theorem trans {heap'' : Heap} (first : Within changed heap heap')
    (second : Within changed heap' heap'') : Within changed heap heap'' where
  grown := first.grown.trans second.grown
  others place old apart :=
    (second.others place (old.trans_le first.grown) apart).trans (first.others place old apart)

theorem mono (within : Within changed heap heap')
    (fewer : ∀ place < heap.length, place ∈ changed → place ∈ more) : Within more heap heap' where
  grown := within.grown
  others place old apart := within.others place old fun member => apart (fewer place old member)

theorem withSection (heap : Heap) (place : Nat) (part : String) :
    Within {place} heap (heap.withSection place part) :=
  (set ..).trans ((append ..).mono nofun)

/-- Places that are apart from those that change stay as they are. -/
theorem same (within : Within changed heap heap') {places : Finset Nat}
    (bounded : ∀ place ∈ places, place < heap.length) (apart : Disjoint places changed) :
    ∀ place ∈ places, heap'[place]? = heap[place]? := fun place member =>
  within.others place (bounded place member) (Finset.disjoint_left.mp apart member)

end Within

theorem withSection_new (heap : Heap) (place : Nat) (part : String) :
    (heap.withSection place part)[heap.length]? = some [] := by simp [withSection]

theorem withSection_old {place : Nat} (size : place < heap.length) (part : String) :
    (heap.withSection place part)[place]? =
      some (Value.insert (.str part) (.dict heap.length) (heap.getD place [])) := by
  rw [withSection, List.getElem?_append_left (by simpa using size), List.getElem?_set_self size]

theorem withSection_found {place : Nat} (size : place < heap.length) (part : String) :
    Value.lookup? (.str part) ((heap.withSection place part).getD place []) =
      some (.dict heap.length) := by
  rw [List.getD, withSection_old size, Option.getD_some, Value.lookup?_insert_self]

theorem Holds.within {slot : Slot} {places changed : Finset Nat} {tree : Value}
    (holds : heap.Holds slot places tree) (within : Within changed heap heap')
    (apart : Disjoint places changed) : heap'.Holds slot places tree :=
  holds.frame (within.same holds.bounded apart)

theorem HoldsAll.within {cell : List (Value × Slot)} {places changed : Finset Nat}
    {entries : List (Value × Value)} (holds : heap.HoldsAll cell places entries)
    (within : Within changed heap heap') (apart : Disjoint places changed) :
    heap'.HoldsAll cell places entries :=
  holds.frame (within.same holds.bounded apart)

/-! ## Putting something at the end of a path -/

/-- What comes of putting something into a tree, and of putting it where a slot holds the tree. -/
inductive Assigned (heap : Heap) (start : Slot) (places : Finset Nat) :
    Outcome Value → Outcome Unit × Heap → Prop where
  | refused (fault : Fault) : Assigned heap start places (.error fault) (.error fault, heap)
  | placed {heap' : Heap} {places' : Finset Nat} {tree : Value}
      (holds : heap'.Holds start places' tree)
      (inside : ∀ place ∈ places', place ∈ places ∨ heap.length ≤ place)
      (within : Within places heap heap') : Assigned heap start places (.ok tree) (.ok (), heap')

/-- Anything can be put into an empty dictionary. -/
theorem assign_empty (value : Value) (part : String) (rest : List String) :
    ∃ tree, Settings.assign value (part :: rest) (.dict []) = .ok tree := by
  have free : placed? value (part :: rest) (some (.dict [])) ≠ none := by
    rw [Ne, placed?_eq_none, ending_empty]
    exact nofun
  obtain ⟨tree, placed⟩ := Option.ne_none_iff_exists'.mp free
  exact ⟨tree, (assign_iff (List.cons_ne_nil part rest)).mpr placed⟩

theorem assign_leaf (slot : Slot) (value : Value) {leaf : Value}
    (plain : ∀ entries, leaf ≠ .dict entries) (part : String) (rest : List String) :
    ∃ fault, Settings.assign value (part :: rest) leaf = .error fault ∧
      heap.assign slot (part :: rest) (.leaf leaf) = (.error fault, heap) := by
  cases rest <;> cases leaf
  case nil.dict entries | cons.dict entries => exact absurd rfl (plain entries)
  all_goals exact ⟨_, rfl, rfl⟩

theorem assign_found {place : Nat} {part : String} {inner : Slot}
    (found : Value.lookup? (.str part) (heap.getD place []) = some inner) (slot : Slot)
    (next : String) (rest : List String) :
    heap.assign slot (part :: next :: rest) (.dict place) =
      heap.assign slot (next :: rest) inner := by
  rw [Heap.assign, found]
  exact List.cons_ne_nil next rest

theorem assign_absent {place : Nat} {part : String}
    (absent : Value.lookup? (.str part) (heap.getD place []) = none) (slot : Slot)
    (next : String) (rest : List String) :
    heap.assign slot (part :: next :: rest) (.dict place) =
      (heap.withSection place part).assign slot (next :: rest) (.dict heap.length) := by
  rw [Heap.assign, absent]
  exact List.cons_ne_nil next rest

theorem assign_cons (value : Value) (part next : String) (rest : List String)
    (entries : List (Value × Value)) :
    Settings.assign value (part :: next :: rest) (.dict entries) =
      (Settings.assign value (next :: rest)
        ((Value.lookup? (.str part) entries).getD (.dict []))).map fun inner =>
          .dict (Value.insert (.str part) inner entries) := by
  rw [Settings.assign]
  · cases Settings.assign value (next :: rest) _ <;> rfl
  · exact List.cons_ne_nil next rest

/-- What goes on below a key at which nothing stands goes on in an empty section. -/
theorem assign_section (value : Value) {part : String} {entries : List (Value × Value)}
    (absent : Value.lookup? (.str part) entries = none) (next : String) (rest : List String) :
    ∃ tree, Settings.assign value (part :: next :: rest) (.dict entries) = .ok tree ∧
      Settings.assign value (part :: next :: rest)
        (.dict (Value.insert (.str part) (.dict []) entries)) = .ok tree := by
  obtain ⟨tree, fits⟩ := assign_empty value next rest
  refine ⟨.dict (Value.insert (.str part) tree entries), ?_, ?_⟩
  · rw [assign_cons, absent, Option.getD_none, fits, Except.map]
  · rw [assign_cons, Value.lookup?_insert_self, Option.getD_some, fits, Except.map,
      Value.insert_insert]

theorem Holds.root {place : Nat} {places : Finset Nat} {tree : Value}
    (holds : heap.Holds (.dict place) places tree) : place ∈ places := by
  cases holds with
  | dict => exact Finset.mem_insert_self ..

/-- What a dictionary has at a key may be replaced by something else that is held apart from the
rest of it. -/
theorem Holds.focus {place : Nat} {places : Finset Nat} {entries : List (Value × Value)}
    (holds : heap.Holds (.dict place) places (.dict entries)) (key : Value) :
    ∃ cell own others, heap[place]? = some cell ∧ places = insert place (own ∪ others) ∧
      Disjoint own (insert place others) ∧ place ∉ others ∧
      heap.HoldsAt (Value.lookup? key cell) own (Value.lookup? key entries) ∧
      ∀ {heap' : Heap} {slot : Slot} {added changed : Finset Nat} {value : Value},
        Within changed heap heap' → Disjoint others changed →
        heap'[place]? = some (Value.insert key slot cell) → heap'.Holds slot added value →
        Disjoint added (insert place others) →
        heap'.Holds (.dict place) (insert place (added ∪ others))
          (.dict (Value.insert key value entries)) := by
  cases holds with
  | @dict place cell places entries there inner notIn =>
      obtain ⟨own, others, rfl, apart, at?, instead⟩ := inner.focus key
      obtain ⟨notOwn, notOther⟩ := Finset.notMem_union.mp notIn
      refine ⟨cell, own, others, there, rfl, ?_, notOther, at?, ?_⟩
      · exact Finset.disjoint_insert_right.mpr ⟨notOwn, apart⟩
      · intro heap' slot added changed value within stay there' new newApart
        obtain ⟨notAdded, newOthers⟩ := Finset.disjoint_insert_right.mp newApart
        have bounded := (Finset.forall_mem_union.mp inner.bounded).2
        exact .dict there' (instead (within.same bounded stay) new newOthers)
          (Finset.notMem_union.mpr ⟨notAdded, notOther⟩)

section Assign

variable {place : Nat} {slot : Slot} {old added : Finset Nat} {entries : List (Value × Value)}
  {value : Value}

theorem Holds.assign_last (holds : heap.Holds (.dict place) old (.dict entries))
    (new : heap.Holds slot added value) (apart : Disjoint old added) (last : String) :
    Assigned heap (.dict place) (old ∪ added) (Settings.assign value [last] (.dict entries))
      (heap.assign slot [last] (.dict place)) := by
  obtain ⟨cell, own, others, there, rfl, -, notOther, -, instead⟩ := holds.focus (.str last)
  have here : heap.getD place [] = cell := by simp [there]
  have size := (List.getElem?_eq_some_iff.mp there).1
  have within := Within.set heap place (Value.insert (.str last) slot cell)
  have newStays := new.within within (by grind [Finset.disjoint_left])
  rw [Heap.assign, here, Settings.assign]
  refine .placed (instead within (Finset.disjoint_singleton_right.mpr notOther)
    (List.getElem?_set_self size) newStays ?_) ?_ (within.mono ?_)
  · grind [Finset.disjoint_left]
  · grind
  · grind

/-- What goes on below a key goes on in what stands there. -/
theorem Holds.assign_inner (holds : heap.Holds (.dict place) old (.dict entries))
    (apart : Disjoint old added) {part : String} {inner : Slot}
    (found : Value.lookup? (.str part) (heap.getD place []) = some inner) (next : String)
    (rest : List String)
    (below : ∀ {own : Finset Nat} {tree : Value}, heap.Holds inner own tree → Disjoint own added →
      Assigned heap inner (own ∪ added) (Settings.assign value (next :: rest) tree)
        (heap.assign slot (next :: rest) inner)) :
    Assigned heap (.dict place) (old ∪ added)
      (Settings.assign value (part :: next :: rest) (.dict entries))
      (heap.assign slot (part :: next :: rest) (.dict place)) := by
  have bounded := holds.bounded
  obtain ⟨cell, own, others, there, rfl, apartOwn, notOther, at?, instead⟩ :=
    holds.focus (.str part)
  have here : heap.getD place [] = cell := by simp [there]
  rw [assign_cons, assign_found found]
  rw [here] at found
  rw [found] at at?
  obtain ⟨tree, found', inside⟩ := at?.of_some
  have assigned := below inside (by grind [Finset.disjoint_left])
  rw [found', Option.getD_some]
  generalize Settings.assign value (next :: rest) tree = outcome,
    heap.assign slot (next :: rest) inner = result at assigned ⊢
  cases assigned with
  | refused fault => exact .refused fault
  | @placed heap' places' tree' holds' inside' within =>
      refine .placed (instead within ?_ ?_ holds' ?_) ?_ (within.mono ?_)
      · grind [Finset.disjoint_left]
      · rw [Value.insert_lookup? found, within.others place _ _, there]
        · grind
        · grind [Finset.disjoint_left]
      · grind [Finset.disjoint_left]
      · grind
      · grind

/-- A dictionary with a new one at a key that it did not have. -/
theorem Holds.withSection (holds : heap.Holds (.dict place) old (.dict entries)) {part : String}
    (absent : Value.lookup? (.str part) (heap.getD place []) = none) :
    Value.lookup? (.str part) entries = none ∧
      (heap.withSection place part).Holds (.dict place) (insert heap.length old)
        (.dict (Value.insert (.str part) (.dict []) entries)) := by
  have bounded := holds.bounded
  obtain ⟨cell, own, others, there, rfl, -, notOther, at?, instead⟩ := holds.focus (.str part)
  have here : heap.getD place [] = cell := by simp [there]
  have linked := withSection_old (List.getElem?_eq_some_iff.mp there).1 part
  rw [here] at absent linked
  rw [absent] at at?
  obtain ⟨absent', rfl⟩ := at?.of_none
  rw [Finset.empty_union] at bounded ⊢
  have empty : (heap.withSection place part).Holds (.dict heap.length) {heap.length} (.dict []) :=
    .dict (withSection_new heap place part) .nil (Finset.notMem_empty _)
  refine ⟨absent', ?_⟩
  rw [Finset.insert_comm, Finset.insert_eq heap.length]
  exact instead (.withSection heap place part) (Finset.disjoint_singleton_right.mpr notOther) linked
    empty (Finset.disjoint_singleton_left.mpr fun member => Nat.lt_irrefl _ (bounded _ member))

/-- What goes on below a key at which nothing stands goes on in a new dictionary. -/
theorem Holds.assign_new (holds : heap.Holds (.dict place) old (.dict entries))
    (new : heap.Holds slot added value) (apart : Disjoint old added) {part : String}
    (absent : Value.lookup? (.str part) (heap.getD place []) = none) (next : String)
    (rest : List String)
    (below : ∀ {heap : Heap} {inner : Slot} {own : Finset Nat} {tree : Value},
      heap.Holds slot added value → heap.Holds inner own tree → Disjoint own added →
      Assigned heap inner (own ∪ added) (Settings.assign value (next :: rest) tree)
        (heap.assign slot (next :: rest) inner)) :
    Assigned heap (.dict place) (old ∪ added)
      (Settings.assign value (part :: next :: rest) (.dict entries))
      (heap.assign slot (part :: next :: rest) (.dict place)) := by
  have bounded := holds.bounded
  have newBounded := new.bounded
  have root := holds.root
  obtain ⟨absent', larger⟩ := holds.withSection absent
  have within := Within.withSection heap place part
  have newStays := new.within within (by grind [Finset.disjoint_left])
  have found := withSection_found (bounded place root) part
  obtain ⟨tree, fits, fits'⟩ := assign_section value absent' next rest
  have assigned := larger.assign_inner (by grind [Finset.disjoint_left]) found next rest
    (below newStays)
  rw [fits'] at assigned
  rw [fits, assign_absent absent, ← assign_found found]
  generalize (heap.withSection place part).assign slot (part :: next :: rest) (.dict place) = result
    at assigned ⊢
  cases assigned with
  | placed holds' inside' within' =>
      have grown := within.grown
      exact .placed holds' (by grind) (((within.mono (by grind)).trans within').mono (by grind))

/-- To put something at the end of a path is to put it at the end of the path in a tree that is held
where the path begins, as long as it has dictionaries of its own. -/
theorem Holds.assign {start : Slot} {tree : Value} (holds : heap.Holds start old tree)
    (new : heap.Holds slot added value) (apart : Disjoint old added) (part : String)
    (rest : List String) :
    Assigned heap start (old ∪ added) (Settings.assign value (part :: rest) tree)
      (heap.assign slot (part :: rest) start) := by
  induction rest generalizing heap start old tree part with
  | nil =>
      cases holds with
      | leaf plain =>
          obtain ⟨fault, refused, refused'⟩ := assign_leaf slot value plain part []
          rw [refused, refused']
          exact .refused fault
      | dict there inner notIn => exact Holds.assign_last (.dict there inner notIn) new apart part
  | cons next rest ih =>
      cases holds with
      | leaf plain =>
          obtain ⟨fault, refused, refused'⟩ := assign_leaf slot value plain part (next :: rest)
          rw [refused, refused']
          exact .refused fault
      | @dict place cell places entries there inner notIn =>
          have whole : heap.Holds (.dict place) (insert place places) (.dict entries) :=
            .dict there inner notIn
          cases found : Value.lookup? (.str part) (heap.getD place []) with
          | some inner =>
              exact whole.assign_inner apart found next rest fun inside apart =>
                ih inside new apart next
          | none =>
              exact whole.assign_new new apart found next rest fun new inside apart =>
                ih inside new apart next

end Assign

/-! ## New dictionaries -/

mutual

/-- The dictionaries of a tree are new when they are made. -/
theorem make_holds (tree : Value) (heap : Heap) : ∃ places,
    (heap.make tree).2.Holds (heap.make tree).1 places tree ∧
      (∀ place ∈ places, heap.length ≤ place) ∧ Within ∅ heap (heap.make tree).2 := by
  cases tree
  case dict entries =>
    obtain ⟨places, inner, new, within⟩ := makeAll_holds entries heap
    have larger := Within.append (heap.makeAll entries).2 [(heap.makeAll entries).1]
    refine ⟨insert (heap.makeAll entries).2.length places, ?_, ?_, within.trans larger⟩
    · refine .dict (by simp [make]) (inner.within larger (Finset.disjoint_empty_right _)) ?_
      exact fun member => Nat.lt_irrefl _ (inner.bounded _ member)
    · exact Finset.forall_mem_insert _ _ _ |>.mpr ⟨within.grown, new⟩
  all_goals exact ⟨∅, .leaf (by simp), nofun, .refl ..⟩

theorem makeAll_holds (entries : List (Value × Value)) (heap : Heap) : ∃ places,
    (heap.makeAll entries).2.HoldsAll (heap.makeAll entries).1 places entries ∧
      (∀ place ∈ places, heap.length ≤ place) ∧ Within ∅ heap (heap.makeAll entries).2 := by
  cases entries with
  | nil => exact ⟨∅, .nil, nofun, .refl ..⟩
  | cons entry rest =>
      obtain ⟨key, value⟩ := entry
      obtain ⟨first, here, newFirst, within⟩ := make_holds value heap
      obtain ⟨others, later, newOthers, within'⟩ := makeAll_holds rest (heap.make value).2
      refine ⟨first ∪ others, .cons ?_ later ?_, Finset.forall_mem_union.mpr ⟨newFirst, ?_⟩,
        within.trans within'⟩
      · exact here.within within' (Finset.disjoint_empty_right _)
      · exact Finset.disjoint_left.mpr fun place member member' =>
          Nat.not_le.mpr (here.bounded place member) (newOthers place member')
      · exact fun place member => within.grown.trans (newOthers place member)

end

theorem make_dict {tree : Value} (dict : ∃ entries, tree = .dict entries) (heap : Heap) :
    ∃ place, (heap.make tree).1 = .dict place := by
  obtain ⟨entries, rfl⟩ := dict
  exact ⟨_, rfl⟩

/-! ## Distinct keys -/

theorem Tidy.append {cell : List (Value × Slot)} (tidy : heap.Tidy)
    (distinct : Value.Distinct cell) : Tidy (heap ++ [cell]) :=
  List.forall_mem_append.mpr ⟨tidy, List.forall_mem_singleton.mpr distinct⟩

theorem Tidy.set (tidy : heap.Tidy) (place : Nat) (key : Value) (slot : Slot) :
    Tidy (List.set heap place (Value.insert key slot (heap.getD place []))) := by
  intro cell member
  rcases List.mem_or_eq_of_mem_set member with old | rfl
  · exact tidy cell old
  · refine Value.Distinct.insert ?_ key slot
    cases there : heap[place]? with
    | none => simp [there, Value.Distinct]
    | some cell => simpa [there] using tidy cell (List.mem_of_getElem? there)

theorem Tidy.withSection (tidy : heap.Tidy) (place : Nat) (part : String) :
    Tidy (heap.withSection place part) :=
  Tidy.append (tidy.set place _ _) List.Pairwise.nil

theorem Tidy.assign (tidy : heap.Tidy) (slot start : Slot) (path : List String) :
    Tidy (heap.assign slot path start).2 := by
  fun_induction Heap.assign slot path start heap with
  | case1 | case3 | case6 => exact tidy
  | case2 last place heap => exact tidy.set place _ _
  | case4 part rest place heap _ inner _ ih => exact ih tidy
  | case5 part rest place heap _ _ ih => exact ih (tidy.withSection place part)

mutual

theorem Tidy.make {heap : Heap} (tidy : heap.Tidy) {tree : Value} (treeTidy : tree.Tidy) :
    Tidy (heap.make tree).2 := by
  cases tree
  case dict entries =>
    obtain ⟨places, inner, -, -⟩ := makeAll_holds entries heap
    refine Tidy.append (tidy.makeAll treeTidy.inner) (Value.distinct_keys.mpr ?_)
    rw [← inner.keys]
    exact Value.distinct_keys.mp treeTidy.distinct
  all_goals exact tidy

theorem Tidy.makeAll {heap : Heap} (tidy : heap.Tidy) {entries : List (Value × Value)}
    (inner : ∀ entry ∈ entries, entry.2.Tidy) : Tidy (heap.makeAll entries).2 := by
  cases entries with
  | nil => exact tidy
  | cons entry rest =>
      obtain ⟨key, value⟩ := entry
      obtain ⟨here, later⟩ := List.forall_mem_cons.mp inner
      exact (tidy.make here).makeAll later

end

/-! ## Faults -/

/-- A path that begins in an empty dictionary is free. -/
theorem assign_free {place : Nat} (free : heap[place]? = some []) (slot : Slot) (part : String)
    (rest : List String) : (heap.assign slot (part :: rest) (.dict place)).1 = .ok () := by
  induction rest generalizing heap place part with
  | nil => rfl
  | cons next rest ih =>
      have absent : Value.lookup? (.str part) (heap.getD place []) = none := by
        simp [free, Value.lookup?_nil]
      rw [assign_absent absent]
      exact ih (withSection_new heap place part) next

/-- What cannot be put somewhere leaves the heap as it is. -/
theorem assign_fault {slot start : Slot} {path : List String} {fault : Fault}
    (failed : (heap.assign slot path start).1 = .error fault) :
    (heap.assign slot path start).2 = heap := by
  fun_induction Heap.assign slot path start heap with
  | case1 | case2 => nomatch failed
  | case3 | case6 => rfl
  | case4 part rest _ place heap inner _ ih => exact ih failed
  | case5 part rest place heap longer absent =>
      obtain ⟨next, rest, rfl⟩ := List.exists_cons_of_ne_nil longer
      rw [assign_free (withSection_new heap place part)] at failed
      nomatch failed

/-! ## Reading again -/

theorem mapM_of_some {α β : Type} {step step' : α → Option β} (again : ∀ a b, step a = some b →
    step' a = some b) {as : List α} {bs : List β} (given : as.mapM step = some bs) :
    as.mapM step' = some bs := by
  induction as generalizing bs with
  | nil => exact given
  | cons a rest ih =>
      simp only [List.mapM_cons, Option.bind_eq_bind, Option.bind_eq_some_iff] at given ⊢
      obtain ⟨b, first, bs, others, same⟩ := given
      exact ⟨b, again a b first, bs, ih others, same⟩

/-- What has been read is read again when there are more dictionaries. -/
theorem read?_again {slot : Slot} {tree : Value} {depth depth' : Nat}
    (read : heap.read? depth slot = some tree) (within : Within ∅ heap heap')
    (deeper : depth ≤ depth') : heap'.read? depth' slot = some tree := by
  induction depth generalizing slot tree depth' with
  | zero => 
      cases slot with
      | leaf => cases depth' <;> exact read
      | dict => nomatch read
  | succ depth ih => 
      obtain ⟨depth', rfl⟩ := Nat.exists_eq_add_of_le' deeper
      cases slot with
      | leaf => exact read
      | dict place =>
          simp only [read?, Option.bind_eq_bind, Option.bind_eq_some_iff] at read ⊢
          obtain ⟨cell, there, entries, inner, whole⟩ := read
          have old := (List.getElem?_eq_some_iff.mp there).1
          have there' := (within.others place old (Finset.notMem_empty _)).trans there
          refine ⟨cell, there', entries, ?_, whole⟩
          refine mapM_of_some (fun entry entry' given => ?_) inner
          obtain ⟨value, below, same⟩ := Option.bind_eq_some_iff.mp given
          exact Option.bind_eq_some_iff.mpr ⟨value, ih below (Nat.le_of_succ_le_succ deeper), same⟩

end FieldRules.Settings.Heap
