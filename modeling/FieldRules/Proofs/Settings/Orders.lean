import FieldRules.Proofs.Keyed
import FieldRules.Proofs.Settings.Placing
import Mathlib.Data.List.Nodup

/-! # Settings in different orders

Settings are put into one tree one after another. A setting cannot be put where the path of an
earlier one ends on the way, and of settings with the same path the last one stays. When neither
comes about, they make up the same tree in any order.
-/

namespace FieldRules.Settings

/-- A path begins with another one and goes on. -/
def GoesOn (path longer : List String) : Prop := ∃ part more, longer = path ++ part :: more

theorem goesOn_irrefl (path : List String) : ¬GoesOn path path := by
  rintro ⟨part, more, same⟩
  simp at same

theorem prefix_iff {path longer : List String} :
    path <+: longer ↔ path = longer ∨ GoesOn path longer := by
  constructor
  · rintro ⟨more, rfl⟩
    cases more with
    | nil => exact .inl (List.append_nil path).symm
    | cons part more => exact .inr ⟨part, more, rfl⟩
  · rintro (rfl | ⟨part, more, rfl⟩)
    · exact List.prefix_refl path
    · exact List.prefix_append path _

theorem pathOf_inj {key other : String} (same : pathOf key = pathOf other) : key = other := by
  have inner : Text.splitOn '.' key.toList = Text.splitOn '.' other.toList := by
    refine List.map_injective_iff.mpr (fun a b equal => ?_) same
    simpa using congrArg String.toList equal
  have first := (Text.separated_iff.mpr rfl : Text.Separated '.' key.toList _).joined
  have second := (Text.separated_iff.mpr rfl : Text.Separated '.' other.toList _).joined
  rw [inner, second] at first
  exact String.toList_inj.mp first.symm

/-! ## Settings put one after another -/

variable {rows others : List (String × Value)} {entries : List (Value × Value)} {tree : Value}

theorem ending_blocked_append {path : List String} {old : Option Value}
    (blocked : ending path old = .blocked) (more : List String) :
    ending (path ++ more) old = .blocked := by
  induction path generalizing old with
  | nil => rcases old with - | (_ | _) <;> cases blocked
  | cons part rest ih =>
      cases room : room? old with
      | some entries =>
          rw [ending_cons room] at blocked
          rw [List.cons_append, ending_cons room]
          exact ih blocked
      | none => rcases old with - | (_ | _) <;> simp_all [room?, ending]

/-- A leaf that was put somewhere is in the way of what goes on from there, and of nothing else. -/
theorem ending_placed_blocked {value : Value} (leaf : ∀ below, value ≠ .dict below)
    {path other : List String} {old : Option Value} (placed : placed? value path old = some tree) :
    ending other (some tree) = .blocked ↔ GoesOn path other ∨ ending other old = .blocked := by
  have free : ending path old ≠ .blocked := by
    rw [ne_eq, ← placed?_eq_none, placed]
    exact Option.some_ne_none tree
  rw [ending_placed placed, endingAfter]
  by_cases below : path <+: other
  · rw [if_pos below]
    obtain ⟨more, rfl⟩ := below
    rw [List.drop_left]
    cases more with
    | nil =>
        have leads : ending [] (some value) ≠ .blocked := by cases value <;> simp [ending]
        rw [List.append_nil]
        exact iff_of_false leads (not_or.mpr ⟨goesOn_irrefl path, free⟩)
    | cons part more =>
        have blocks : ending (part :: more) (some value) = .blocked := by
          cases value with
          | dict below => exact absurd rfl (leaf below)
          | _ => rfl
        exact iff_of_true blocks (.inl ⟨part, more, rfl⟩)
  · have stays : ¬GoesOn path other := fun on => below (prefix_iff.mpr (.inr on))
    rw [if_neg below]
    by_cases above : other <+: path
    · have open' : ending other old ≠ .blocked := by
        obtain ⟨more, rfl⟩ := above
        exact fun blocked => free (ending_blocked_append blocked more)
      rw [if_pos above]
      exact iff_of_false (by simp) (not_or.mpr ⟨stays, open'⟩)
    · rw [if_neg above]
      simp only [stays, false_or]

/-- Settings can be put into a tree unless a leaf of the tree or an earlier setting is in the way. -/
theorem assignAll_ok_iff (leaves : ∀ row ∈ rows, ∀ below, row.2 ≠ .dict below) :
    (∃ tree, assignAll (.dict entries) rows = .ok tree) ↔
      (∀ row ∈ rows, ending (pathOf row.1) (some (.dict entries)) ≠ .blocked) ∧
        rows.Pairwise fun row later => ¬GoesOn (pathOf row.1) (pathOf later.1) := by
  induction rows generalizing entries with
  | nil => exact iff_of_true ⟨_, rfl⟩ ⟨nofun, .nil⟩
  | cons row rest ih =>
      obtain ⟨leaf, restLeaves⟩ := List.forall_mem_cons.mp leaves
      have some := pathOf_ne_nil row.1
      rw [List.forall_mem_cons, List.pairwise_cons]
      cases placed : placed? row.2 (pathOf row.1) (.some (.dict entries)) with
      | none =>
          refine iff_of_false ?_ fun free => free.1.1 (placed?_eq_none.mp placed)
          rintro ⟨tree, assigned⟩
          obtain ⟨next, here, -⟩ := Outcome.bind_ok assigned
          rw [assign_iff some, placed] at here
          nomatch here
      | some next =>
          obtain ⟨below, rfl⟩ := placed?_tree some placed
          have free : ending (pathOf row.1) (.some (.dict entries)) ≠ .blocked := by
            rw [ne_eq, ← placed?_eq_none, placed]
            nofun
          have goesOn : assignAll (.dict entries) (row :: rest) = assignAll (.dict below) rest := by
            rw [assignAll, (assign_iff some).mpr placed]
            rfl
          rw [goesOn, ih restLeaves]
          simp only [ne_eq, ending_placed_blocked leaf placed, not_or]
          constructor
          · rintro ⟨open', later⟩
            exact ⟨⟨free, fun other member => (open' other member).2⟩,
              fun other member => (open' other member).1, later⟩
          · rintro ⟨⟨-, open'⟩, apart, later⟩
            exact ⟨fun other member => ⟨apart other member, open' other member⟩, later⟩

/-- What a path leads to after several settings, from what it led to before. -/
theorem ending_assignAll (assigned : assignAll (.dict entries) rows = .ok tree)
    (path : List String) :
    ending path (some tree) =
      rows.foldl (fun before row => endingAfter path (pathOf row.1) row.2 before)
        (ending path (some (.dict entries))) := by
  induction rows generalizing entries with
  | nil =>
      obtain rfl := Except.ok.inj assigned
      rfl
  | cons row rest ih =>
      obtain ⟨next, here, later⟩ := Outcome.bind_ok assigned
      have placed := (assign_iff (pathOf_ne_nil row.1)).mp here
      obtain ⟨below, rfl⟩ := placed?_tree (pathOf_ne_nil row.1) placed
      rw [ih later, ending_placed placed, List.foldl_cons]

/-- Settings of which none goes on from another one, and each has one value. -/
structure Compatible (rows : List (String × Value)) : Prop where
  apart : ∀ row ∈ rows, ∀ other ∈ rows, ¬GoesOn (pathOf row.1) (pathOf other.1)
  agree : ∀ row ∈ rows, ∀ other ∈ rows, row.1 = other.1 → row.2 = other.2

namespace Compatible

theorem subset (fits : Compatible rows) (part : others ⊆ rows) : Compatible others where
  apart row member other otherMember := fits.apart row (part member) other (part otherMember)
  agree row member other otherMember := fits.agree row (part member) other (part otherMember)

/-- A path is concerned by settings of one key only, or by those below it, which are alike to it. -/
theorem endingAfter_comm (fits : Compatible rows) {row other : String × Value}
    (member : row ∈ rows) (otherMember : other ∈ rows) (path : List String) (before : Ending) :
    endingAfter path (pathOf other.1) other.2 (endingAfter path (pathOf row.1) row.2 before) =
      endingAfter path (pathOf row.1) row.2 (endingAfter path (pathOf other.1) other.2 before) := by
  by_cases same : row.1 = other.1
  · rw [same, fits.agree row member other otherMember same]
  · have notBelow : ¬pathOf row.1 <+: pathOf other.1 := fun below =>
      (prefix_iff.mp below).elim (same ∘ pathOf_inj) (fits.apart row member other otherMember)
    have notAbove : ¬pathOf other.1 <+: pathOf row.1 := fun above =>
      (prefix_iff.mp above).elim (same ∘ Eq.symm ∘ pathOf_inj)
        (fits.apart other otherMember row member)
    simp only [endingAfter]
    by_cases here : pathOf row.1 <+: path
    · have notThere : ¬pathOf other.1 <+: path := fun there =>
        (List.prefix_or_prefix_of_prefix here there).elim notBelow notAbove
      have notOver : ¬path <+: pathOf other.1 := fun wider => notBelow (here.trans wider)
      simp only [here, notThere, notOver, if_true, if_false]
    · by_cases there : pathOf other.1 <+: path
      · have notOver : ¬path <+: pathOf row.1 := fun wider => notAbove (there.trans wider)
        simp only [here, there, notOver, if_true, if_false]
      · simp only [here, there, if_false]
        split <;> split <;> rfl

/-- Compatible settings make up the same tree in any order. -/
theorem ending_perm (fits : Compatible rows) (perm : rows.Perm others) {tree' : Value}
    (assigned : assignAll (.dict entries) rows = .ok tree)
    (assigned' : assignAll (.dict entries) others = .ok tree') (path : List String) :
    ending path (some tree) = ending path (some tree') := by
  rw [ending_assignAll assigned, ending_assignAll assigned']
  refine perm.foldl_eq' (fun row member other otherMember before => ?_) _
  exact fits.endingAfter_comm member otherMember path before

theorem ending_own (fits : Compatible rows) (assigned : assignAll (.dict entries) rows = .ok tree)
    {row : String × Value} (member : row ∈ rows) (leaf : ∀ below, row.2 ≠ .dict below) :
    ending (pathOf row.1) (some tree) = .leaf row.2 := by
  obtain ⟨front, back, rfl⟩ := List.append_of_mem member
  have last : (front ++ row :: back).Perm ((front ++ back) ++ [row]) := by
    rw [List.append_assoc]
    exact (List.perm_append_singleton row back).symm.append_left front
  rw [ending_assignAll assigned, last.foldl_eq' fun first here second there before =>
    fits.endingAfter_comm here there (pathOf row.1) before, List.foldl_append]
  rw [List.foldl_cons, List.foldl_nil, endingAfter, if_pos (List.prefix_refl _), List.drop_length]
  exact ending_leaf leaf

/-- Entries with distinct keys agree, so it is enough that none goes on from another one. -/
theorem ofList (apart : ∀ row ∈ rows, ∀ other ∈ rows, ¬GoesOn (pathOf row.1) (pathOf other.1)) :
    Compatible (Keyed.ofList rows) where
  apart row member other otherMember := apart row ((Keyed.mem_putAll member).resolve_left nofun)
    other ((Keyed.mem_putAll otherMember).resolve_left nofun)
  agree row member other otherMember same := by
    refine Keyed.value_unique (Keyed.nodup_ofList rows) member ?_
    rw [same]
    exact otherMember

theorem mem_ofList (fits : Compatible rows) {row : String × Value} :
    row ∈ Keyed.ofList rows ↔ row ∈ rows := by
  have given {other : String × Value} (member : other ∈ Keyed.ofList rows) : other ∈ rows :=
    (Keyed.mem_putAll member).resolve_left nofun
  refine ⟨given, fun member => ?_⟩
  obtain ⟨other, found, same⟩ := List.mem_map.mp (Keyed.mem_names_putAll [] member)
  have equal : other.2 = row.2 := fits.agree other (given found) row member same
  rwa [← Prod.ext same equal]

theorem ofList_perm (fits : Compatible rows) (perm : rows.Perm others) :
    (Keyed.ofList rows).Perm (Keyed.ofList others) := by
  have nodup (rows : List (String × Value)) : (Keyed.ofList rows).Nodup :=
    (Keyed.nodup_ofList rows).of_map
  refine (List.perm_ext_iff_of_nodup (nodup rows) (nodup others)).mpr fun row => ?_
  rw [fits.mem_ofList, (fits.subset perm.symm.subset).mem_ofList, perm.mem_iff]

end Compatible

end FieldRules.Settings
