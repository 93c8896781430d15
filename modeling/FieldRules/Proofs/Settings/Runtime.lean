import FieldRules.Proofs.Settings.History

/-! # Setting values while running

What is set while running lies over all other sources. Setting a value changes this one tree, and
what is seen through it changes along the path of the value only: sections that stand there for the
first time let everything below them through, and hide only what a leaf has hidden before.
-/

namespace FieldRules.Settings

/-! ## Trees seen through others -/

section Placed

variable {value tree : Value} {path : List String} {upper : Option Value}

end Placed

/-! ## The highest source -/

/-- Sorting puts a source behind all that go under it and are not over it too. -/
theorem mergeSort_cons (first : Source) (rest : List Source) :
    (first :: rest).mergeSort Source.isUnder =
      (rest.mergeSort Source.isUnder).takeWhile (fun other => !first.isUnder other) ++
        first :: (rest.mergeSort Source.isUnder).dropWhile fun other => !first.isUnder other := by
  obtain ⟨front, back, sorted, split, lower⟩ :=
    List.mergeSort_cons isUnder_trans isUnder_total first rest
  have ordered := List.pairwise_mergeSort isUnder_trans isUnder_total (first :: rest)
  rw [sorted] at ordered
  have above := (List.pairwise_cons.mp (List.pairwise_append.mp ordered).2.1).1
  rw [sorted, split, List.takeWhile_append_of_pos lower, List.dropWhile_append_of_pos lower]
  cases back with
  | nil => simp
  | cons next back => simp [above next List.mem_cons_self]

/-- A source of the highest priority comes last, wherever it stands. -/
theorem mergeSort_highest {earlier later : List Source} {own : Source}
    (lower : ∀ other ∈ earlier ++ later, other.priority < own.priority) :
    (earlier ++ own :: later).mergeSort Source.isUnder =
      (earlier ++ later).mergeSort Source.isUnder ++ [own] := by
  have notUnder {other : Source} (below : other.priority < own.priority) :
      own.isUnder other = false ∧ other.isUnder own = true := by
    simp only [Source.isUnder, decide_eq_false_iff_not, decide_eq_true_eq]
    omega
  induction earlier with
  | nil =>
      rw [List.nil_append, List.nil_append, mergeSort_cons, List.takeWhile_eq_self_iff.mpr,
        List.dropWhile_eq_nil_iff.mpr]
      all_goals
        intro other member
        simp [notUnder (lower other (List.mem_mergeSort.mp member))]
  | cons first earlier ih =>
      obtain ⟨firstLower, restLower⟩ := List.forall_mem_cons.mp lower
      rw [List.cons_append, List.cons_append, mergeSort_cons, mergeSort_cons, ih restLower]
      have last : first.isUnder own = true := (notUnder firstLower).2
      generalize (earlier ++ later).mergeSort Source.isUnder = sorted
      induction sorted with
      | nil => simp [last]
      | cons next sorted ih =>
          cases under : first.isUnder next <;> simp [under]
          simpa using ih

/-- Neither the name nor the priority of what is set while running. -/
structure Source.Lower (source : Source) : Prop where
  name : source.name ≠ runtimeName
  priority : source.priority < runtimePriority

/-- The source of what is set while running, with its tree. -/
def runtimeSource (tree : Value) : Source := ⟨runtimeName, tree, runtimePriority⟩

/-- What is set while running has at most one source, and that lies over all others. -/
inductive Reserved : List Source → Prop where
  | unset {sources : List Source} (lower : ∀ other ∈ sources, other.Lower) : Reserved sources
  | set {earlier later : List Source} {tree : Value}
      (lower : ∀ other ∈ earlier ++ later, other.Lower) :
      Reserved (earlier ++ runtimeSource tree :: later)

theorem Reserved.adding {sources : List Source} (reserved : Reserved sources) {source : Source}
    (lower : source.Lower) : Reserved (sources ++ [source]) := by
  have last : ∀ other ∈ [source], other.Lower := List.forall_mem_singleton.mpr lower
  cases reserved with
  | unset others => exact .unset (List.forall_mem_append.mpr ⟨others, last⟩)
  | set others =>
      rw [List.append_assoc, List.cons_append]
      refine .set ?_
      rw [← List.append_assoc]
      exact List.forall_mem_append.mpr ⟨others, last⟩

theorem Reserved.setting {sources : List Source} (reserved : Reserved sources)
    (unset : ∀ other ∈ sources, other.name ≠ runtimeName) (tree : Value) :
    Reserved (sources ++ [runtimeSource tree]) := by
  cases reserved with
  | unset lower => exact .set (by simpa using lower)
  | @set earlier later own _ => exact absurd rfl (unset (runtimeSource own) (by simp))

theorem setIn_unset {sources : List Source} (unset : ∀ other ∈ sources, other.name ≠ runtimeName)
    (key : String) (value : Value) :
    setIn key value sources =
      (assign value (pathOf key) (.dict [])).map fun tree => sources ++ [runtimeSource tree] := by
  induction sources with
  | nil =>
      rw [setIn]
      cases assign value (pathOf key) (.dict []) <;> rfl
  | cons first rest ih =>
      obtain ⟨firstUnset, restUnset⟩ := List.forall_mem_cons.mp unset
      rw [setIn, if_neg firstUnset, ih restUnset]
      cases assign value (pathOf key) (.dict []) <;> rfl

theorem setIn_set {earlier : List Source} (unset : ∀ other ∈ earlier, other.name ≠ runtimeName)
    (key : String) (value tree : Value) (later : List Source) :
    setIn key value (earlier ++ runtimeSource tree :: later) =
      (assign value (pathOf key) tree).map fun tree => earlier ++ runtimeSource tree :: later := by
  induction earlier with
  | nil =>
      have own : (runtimeSource tree).name = runtimeName := rfl
      rw [List.nil_append, setIn, if_pos own]
      cases assigned : assign value (pathOf key) tree <;> simp [runtimeSource, assigned] <;> rfl
  | cons first rest ih =>
      obtain ⟨firstUnset, restUnset⟩ := List.forall_mem_cons.mp unset
      rw [List.cons_append, setIn, if_neg firstUnset, ih restUnset]
      cases assign value (pathOf key) tree <;> rfl

theorem joined_runtime {earlier later : List Source}
    (lower : ∀ other ∈ earlier ++ later, other.Lower) (entries : List (Value × Value)) :
    joined (earlier ++ runtimeSource (.dict entries) :: later) =
      (joined (earlier ++ later)).map fun base => overlayEntries base entries := by
  have below : ∀ other ∈ earlier ++ later,
      other.priority < (runtimeSource (.dict entries)).priority :=
    fun other member => (lower other member).priority
  rw [joined, mergeSort_highest below, overlaySources_append]
  show (joined (earlier ++ later)).bind _ = _
  cases joined (earlier ++ later) <;> rfl

/-- Sources are joined from what was set while running, `own`, over all the rest, `base`. To set a
value is to put it into the one, whatever `rebuilt` makes of the sources then. -/
structure Overlaid (sources : List Source) (base own : List (Value × Value))
    (rebuilt : Value → List Source) : Prop where
  tidy : (Value.dict own).Tidy
  joined : Settings.joined sources = .ok (overlayEntries base own)
  setting (key : String) (value : Value) :
    setIn key value sources = (assign value (pathOf key) (.dict own)).map rebuilt
  rejoined (entries : List (Value × Value)) :
    Settings.joined (rebuilt (.dict entries)) = .ok (overlayEntries base entries)
  runtime : own = [] ∨ runtimeSource (.dict own) ∈ sources
  only : ∀ source ∈ sources, source.name = runtimeName → source = runtimeSource (.dict own)

theorem Reserved.overlaid {sources : List Source} (reserved : Reserved sources)
    (proper : ∀ source ∈ sources, source.Proper) :
    ∃ base own rebuilt, Overlaid sources base own rebuilt := by
  cases reserved with
  | unset lower =>
      obtain ⟨base, given⟩ := joined_ok proper
      refine ⟨base, [], _, .empty, given, setIn_unset fun other member => (lower other member).name,
        fun entries => ?_, .inl rfl,
        fun source member same => absurd same (lower source member).name⟩
      rw [joined_runtime (by simpa using lower), List.append_nil, given]
      rfl
  | @set earlier later tree lower =>
      obtain ⟨earlierProper, ownProper, laterProper⟩ :=
        (List.forall_mem_append.mp proper).imp_right List.forall_mem_cons.mp
      obtain ⟨base, given⟩ := joined_ok (List.forall_mem_append.mpr ⟨earlierProper, laterProper⟩)
      obtain ⟨own, rfl⟩ : ∃ own, tree = .dict own := ownProper.tree
      have overlaid (entries : List (Value × Value)) :
          joined (earlier ++ runtimeSource (.dict entries) :: later) =
            .ok (overlayEntries base entries) := by
        rw [joined_runtime lower, given]
        rfl
      refine ⟨base, own, fun tree => earlier ++ runtimeSource tree :: later, ownProper.tidy,
        overlaid own, fun key value => ?_, overlaid, .inr (by simp), fun source member same => ?_⟩
      · have unset : ∀ other ∈ earlier, other.name ≠ runtimeName := fun other member =>
          (lower other (List.mem_append_left _ member)).name
        exact setIn_set unset key value (.dict own) later
      · rcases List.mem_append.mp member with before | behind
        · exact absurd same (lower source (List.mem_append_left _ before)).name
        · rcases List.mem_cons.mp behind with rfl | after
          · rfl
          · exact absurd same (lower source (List.mem_append_right _ after)).name

namespace Overlaid

variable {sources : List Source} {base own : List (Value × Value)} {rebuilt : Value → List Source}

/-- What is put while running is joined over the rest. -/
theorem put (overlaid : Overlaid sources base own rebuilt) {key : String} {value : Value}
    (valueTidy : value.Tidy) {changed : List Source}
    (given : setIn key value sources = .ok changed) :
    ∃ entries, placed? value (pathOf key) (some (.dict own)) = some (.dict entries) ∧
      (Value.dict entries).Tidy ∧ Settings.joined changed = .ok (overlayEntries base entries) := by
  rw [overlaid.setting] at given
  obtain ⟨tree, assigned, rfl⟩ := Outcome.map_ok given
  obtain ⟨entries, rfl, tidy⟩ := assign_tidy valueTidy overlaid.tidy (pathOf_ne_nil key) assigned
  exact ⟨entries, (assign_iff (pathOf_ne_nil key)).mp assigned, tidy, overlaid.rejoined entries⟩

end Overlaid

/-! ## Setting a value -/

theorem put_eq (key : String) (new : Value) (settings : Settings) :
    put key new settings =
      match setIn key new settings.sources with
      | .ok sources => (.ok (), { settings with sources, dirty := true })
      | .error fault => (.error fault, settings) := by
  simp only [put, Task.bind_eq, Task.get_eq]
  cases setIn key new settings.sources <;> rfl

namespace Sound

variable {settings : Settings} {key : String} {new : Value}

end Sound

end FieldRules.Settings
