import FieldRules.Proofs.Settings.Trees
import FieldRules.Settings.Basic

/-! # The source that decides

Of the sources in whose trees a path stays, the one of the highest priority decides what the path
leads to in the joined tree, and of several ones the last that was added. When the sources are
sorted, nothing that lies over it concerns the path.
-/

namespace FieldRules.Settings

/-- What a path leads to in the tree of a source. -/
def Source.ending (source : Source) (path : List String) : Ending :=
  Settings.ending path (some source.tree)

/-- Whether a path does not leave the tree of a source. -/
def Source.Reaches (source : Source) (path : List String) : Prop := source.ending path ≠ .absent

/-- A source whose tree is a dictionary, and all of whose dictionaries have distinct keys. -/
structure Source.Proper (source : Source) : Prop where
  tree : ∃ entries, source.tree = .dict entries
  tidy : source.tree.Tidy

theorem standardTree_tidy : standardTree.Tidy := by
  simp only [standardTree, Value.Tidy.dict_iff, List.pairwise_cons, List.forall_mem_cons, Value.same]
  simp [Value.Tidy.leaf]

/-- A source decides about a path if no earlier one in which the path stays has a higher priority,
and each later one has a lower priority. -/
inductive Decides (path : List String) : List Source → Source → Prop where
  | among {source : Source} (earlier later : List Source) (reaches : source.Reaches path)
      (notUnder : ∀ other ∈ earlier, other.Reaches path → other.priority ≤ source.priority)
      (above : ∀ other ∈ later, other.Reaches path → other.priority < source.priority) :
      Decides path (earlier ++ source :: later) source

variable {path : List String} {sources : List Source} {source : Source}

namespace Decides

theorem reaches (decides : Decides path sources source) : source.Reaches path := by
  cases decides with
  | among _ _ reaches => exact reaches

theorem highest (decides : Decides path sources source) :
    ∀ other ∈ sources, other.Reaches path → other.priority ≤ source.priority := by
  cases decides with
  | among earlier later reaches notUnder above =>
      intro other member stays
      rcases List.mem_append.mp member with before | behind
      · exact notUnder other before stays
      · rcases List.mem_cons.mp behind with rfl | after
        · exact Int.le_refl _
        · exact Int.le_of_lt (above other after stays)

theorem cons {first : Source} (decides : Decides path sources source)
    (notAbove : first.Reaches path → first.priority ≤ source.priority) :
    Decides path (first :: sources) source := by
  cases decides with
  | among earlier later reaches notUnder above =>
      exact .among (first :: earlier) later reaches
        (List.forall_mem_cons.mpr ⟨notAbove, notUnder⟩) above

end Decides

/-- Some source decides about a path unless it leaves the trees of all. -/
theorem decides_or_absent (path : List String) (sources : List Source) :
    (∃ source, Decides path sources source) ∨ ∀ source ∈ sources, ¬source.Reaches path := by
  induction sources with
  | nil => exact .inr nofun
  | cons first rest ih =>
      by_cases stays : first.Reaches path
      · left
        rcases ih with ⟨source, decides⟩ | absent
        · by_cases higher : source.priority < first.priority
          · refine ⟨first, .among [] rest stays nofun fun other member otherStays => ?_⟩
            exact Int.lt_of_le_of_lt (decides.highest other member otherStays) higher
          · exact ⟨source, decides.cons fun _ => Int.not_lt.mp higher⟩
        · refine ⟨first, .among [] rest stays nofun fun other member otherStays => ?_⟩
          exact absurd otherStays (absent other member)
      · refine ih.imp ?_ fun absent => List.forall_mem_cons.mpr ⟨stays, absent⟩
        exact fun ⟨source, decides⟩ => ⟨source, decides.cons fun reaches => absurd reaches stays⟩

/-! ## Sorted sources -/

theorem isUnder_trans (a b c : Source) (under : a.isUnder b = true) (next : b.isUnder c = true) :
    a.isUnder c = true := by
  simp only [Source.isUnder, decide_eq_true_eq] at *
  omega

theorem isUnder_total (a b : Source) : (a.isUnder b || b.isUnder a) = true := by
  simp only [Source.isUnder, Bool.or_eq_true, decide_eq_true_eq]
  omega

/-- After sorting, a path leaves the trees of all sources over the one that decides about it. -/
theorem Decides.sorted (decides : Decides path sources source) :
    ∃ under upper, sources.mergeSort Source.isUnder = under ++ source :: upper ∧
      ∀ other ∈ upper, ¬other.Reaches path := by
  cases decides with
  | among earlier later reaches notUnder above =>
      induction earlier with
      | nil =>
          obtain ⟨under, upper, sorted, sortedLater, -⟩ :=
            List.mergeSort_cons isUnder_trans isUnder_total source later
          refine ⟨under, upper, sorted, fun other member stays => ?_⟩
          have ordered := List.pairwise_mergeSort isUnder_trans isUnder_total (source :: later)
          have inSorted : other ∈ later.mergeSort Source.isUnder :=
            sortedLater ▸ List.mem_append_right _ member
          have inLater : other ∈ later := List.mem_mergeSort.mp inSorted
          have lower := above other inLater stays
          rw [sorted] at ordered
          have notLower := (List.pairwise_cons.mp (List.pairwise_append.mp ordered).2.1).1 other member
          simp only [Source.isUnder, decide_eq_true_eq] at notLower
          omega
      | cons first earlier ih =>
          obtain ⟨notAbove, notUnder⟩ := List.forall_mem_cons.mp notUnder
          obtain ⟨under, upper, sorted, unreached⟩ := ih notUnder
          obtain ⟨front, back, sortedAll, split, lower⟩ :=
            List.mergeSort_cons isUnder_trans isUnder_total first (earlier ++ source :: later)
          rw [sorted] at split
          rw [List.cons_append, sortedAll]
          -- The new source comes under the one that decides, or over it if it has a higher priority.
          rcases List.append_eq_append_iff.mp split with ⟨between, rfl, same⟩ | ⟨between, rfl, rfl⟩
          · rcases List.cons_eq_append_iff.mp same with ⟨rfl, rfl⟩ | ⟨between, rfl, rfl⟩
            · exact ⟨under ++ [first], upper, by simp, unreached⟩
            · refine ⟨under, between ++ first :: back, by simp, fun other member => ?_⟩
              rcases List.mem_append.mp member with before | behind
              · exact unreached other (List.mem_append_left _ before)
              · rcases List.mem_cons.mp behind with rfl | after
                · have higher := lower source (by simp)
                  intro stays
                  have := notAbove stays
                  simp only [Source.isUnder, Bool.not_eq_true', decide_eq_false_iff_not] at higher
                  omega
                · exact unreached other (List.mem_append_right _ after)
          · exact ⟨front ++ first :: between, upper, by simp, unreached⟩

/-! ## Joined trees -/

theorem overlaySources_append (base : List (Value × Value)) (under upper : List Source) :
    overlaySources base (under ++ upper) =
      (overlaySources base under >>= fun joined => overlaySources joined upper) := by
  induction under generalizing base with
  | nil => rfl
  | cons source rest ih =>
      rw [List.cons_append, overlaySources, overlaySources]
      cases source.tree with
      | dict entries => exact ih _
      | _ => rfl

theorem overlaySources_ok (base : List (Value × Value)) (proper : ∀ source ∈ sources, source.Proper) :
    ∃ joined, overlaySources base sources = .ok joined := by
  induction sources generalizing base with
  | nil => exact ⟨base, rfl⟩
  | cons source rest ih =>
      obtain ⟨first, others⟩ := List.forall_mem_cons.mp proper
      obtain ⟨entries, tree⟩ := first.tree
      rw [overlaySources, tree]
      exact ih _ others

/-- The tree of one source over another tree. -/
theorem ending_overlaySource (proper : source.Proper) (path : List String)
    {base joined : List (Value × Value)} (given : overlaySources base [source] = .ok joined) :
    (ending path (some (.dict joined))).visible =
      ((source.ending path).orElse (ending path (some (.dict base)))).visible := by
  obtain ⟨entries, tree⟩ := proper.tree
  have tidy := proper.tidy
  rw [tree] at tidy
  simp only [overlaySources, tree] at given
  obtain rfl := Except.ok.inj given
  rw [Source.ending, tree]
  exact ending_overlay tidy path (some (.dict base))

theorem ending_unreached (proper : ∀ source ∈ sources, source.Proper)
    (unreached : ∀ source ∈ sources, ¬source.Reaches path) {base joined : List (Value × Value)}
    (given : overlaySources base sources = .ok joined) :
    (ending path (some (.dict joined))).visible = (ending path (some (.dict base))).visible := by
  induction sources generalizing base with
  | nil =>
      obtain rfl := Except.ok.inj given
      rfl
  | cons source rest ih =>
      obtain ⟨first, others⟩ := List.forall_mem_cons.mp proper
      obtain ⟨leaves, othersLeave⟩ := List.forall_mem_cons.mp unreached
      rw [← List.singleton_append, overlaySources_append] at given
      obtain ⟨next, here, later⟩ := Outcome.bind_ok given
      rw [ih others othersLeave later, ending_overlaySource first path here,
        Classical.not_not.mp leaves]
      rfl

theorem joined_ok (proper : ∀ source ∈ sources, source.Proper) :
    ∃ merged, joined sources = .ok merged :=
  overlaySources_ok [] fun source member => proper source (List.mem_mergeSort.mp member)

/-- A path leads where it leads in the tree of the source that decides about it. -/
theorem ending_joined (proper : ∀ source ∈ sources, source.Proper) {merged : List (Value × Value)}
    (given : joined sources = .ok merged) (decides : Decides path sources source) :
    (ending path (some (.dict merged))).visible = (source.ending path).visible := by
  obtain ⟨under, upper, sorted, unreached⟩ := decides.sorted
  have properSorted : ∀ other ∈ under ++ source :: upper, other.Proper := by
    intro other member
    rw [← sorted] at member
    exact proper other (List.mem_mergeSort.mp member)
  obtain ⟨-, here, properOver⟩ :=
    (List.forall_mem_append.mp properSorted).imp_right List.forall_mem_cons.mp
  rw [joined, sorted, ← List.singleton_append, overlaySources_append] at given
  obtain ⟨base, -, given⟩ := Outcome.bind_ok given
  rw [overlaySources_append] at given
  obtain ⟨next, laid, given⟩ := Outcome.bind_ok given
  rw [ending_unreached properOver unreached given, ending_overlaySource here path laid]
  have reaches := decides.reaches
  rw [Source.Reaches] at reaches
  cases found : source.ending path with
  | absent => exact absurd found reaches
  | leaf | tree | blocked => rfl

/-- A path that leaves the trees of all sources leaves the joined tree. -/
theorem ending_joined_absent (proper : ∀ source ∈ sources, source.Proper)
    (unreached : ∀ source ∈ sources, ¬source.Reaches path) (some : path ≠ [])
    {merged : List (Value × Value)} (given : joined sources = .ok merged) :
    (ending path (.some (.dict merged))).visible = .absent := by
  have sorted {good : Source → Prop} (all : ∀ source ∈ sources, good source) :
      ∀ source ∈ sources.mergeSort Source.isUnder, good source :=
    fun source member => all source (List.mem_mergeSort.mp member)
  rw [ending_unreached (sorted proper) (sorted unreached) given]
  obtain ⟨part, rest, rfl⟩ := List.exists_cons_of_ne_nil some
  rw [ending_empty]
  rfl

end FieldRules.Settings
