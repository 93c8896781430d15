import FieldRules.Proofs.Keyed
import FieldRules.Proofs.Settings.Placing
import FieldRules.Settings.Environment

/-! # What variables denote

The text of a variable may denote a structure of its own, and like all dictionaries those in it have
distinct keys. So do the trees that variables are put into.
-/

namespace FieldRules

namespace Json

/-! ## Dictionaries of JSON -/

/-- Whatever is read off the front of a text has a property. -/
def Reads {α : Type} (good : α → Prop) (result : Except ReadFault (α × List Char)) : Prop :=
  ∀ a after, result = .ok (a, after) → good a

namespace Reads

variable {α β : Type} {good : α → Prop}

theorem ok {a : α} (fine : good a) (after : List Char) : Reads good (.ok (a, after)) := by
  rintro other rest same
  obtain ⟨rfl, -⟩ := Prod.mk.inj (Except.ok.inj same)
  exact fine

theorem error (reason : ReadFault) : Reads good (.error reason) := fun _ _ same => nomatch same

theorem bind {first : Except ReadFault (β × List Char)} {known : β → Prop}
    (reads : Reads known first) {next : β × List Char → Except ReadFault (α × List Char)}
    (later : ∀ b after, known b → Reads good (next (b, after))) : Reads good (first >>= next) := by
  rcases first with reason | ⟨b, after⟩
  · exact .error reason
  · exact later b after (reads b after rfl)

/-- Nothing need be known of what is read before. -/
theorem any (first : Except ReadFault (α × List Char)) : Reads (fun _ => True) first :=
  fun _ _ _ => trivial

end Reads

theorem takeNumber_tidy (cs : List Char) : Reads Value.Tidy (takeNumber cs) := by
  have unsigned (negative : Bool) (cs : List Char) :
      Reads Value.Tidy (takeUnsigned negative cs) := by
    simp only [takeUnsigned]
    split
    · exact .error _
    · split
      · split
        · exact .error _
        · exact .ok (.leaf nofun) _
      · exact .ok (.leaf nofun) _
  unfold takeNumber
  split
  · split
    · exact .ok (.leaf nofun) _
    · exact unsigned true _
  · exact unsigned false cs

theorem takeNamed?_tidy {cs after : List Char} {value : Value}
    (taken : takeNamed? cs = some (value, after)) : value.Tidy := by
  obtain ⟨⟨word, other⟩, member, found⟩ := List.exists_of_findSome?_eq_some taken
  obtain ⟨rest, _, same⟩ := Option.map_eq_some_iff.mp found
  obtain ⟨rfl, -⟩ := Prod.mk.inj same
  have plain : ∀ row ∈ words, row.2.Tidy := by
    simp only [words, List.forall_mem_cons]
    exact ⟨.leaf nofun, .leaf nofun, .leaf nofun, .leaf nofun, .leaf nofun, nofun⟩
  exact plain _ member

end Json

theorem Value.dictOf_tidy {entries : List (Value × Value)}
    (inner : ∀ entry ∈ entries, entry.2.Tidy) : (Value.dictOf entries).Tidy := by
  have onto (rows : List (Value × Value)) (rowsTidy : (Value.dict rows).Tidy) : (Value.dict
      (entries.foldl (fun sum entry => Value.insert entry.1 entry.2 sum) rows)).Tidy := by
    induction entries generalizing rows with
    | nil => exact rowsTidy
    | cons entry rest ih =>
        obtain ⟨first, others⟩ := List.forall_mem_cons.mp inner
        exact ih others _ (rowsTidy.insert _ first)
  exact onto [] .empty

namespace Json

theorem take_tidy (fuel : Nat) : (∀ cs, Reads Value.Tidy (takeValue fuel cs)) ∧
    ∀ cs, Reads (fun entries => ∀ entry ∈ entries, entry.2.Tidy) (takeEntries fuel cs) := by
  induction fuel with
  | zero => exact ⟨fun _ => .error _, fun _ => .error _⟩
  | succ fuel ih =>
      obtain ⟨ofValue, ofEntries⟩ := ih
      refine ⟨?value, ?entries⟩
      case value =>
        intro cs
        simp only [takeValue]
        split
        · exact .bind (.any _) fun s after _ => .ok (.leaf nofun) after
        · split
          · exact .ok (.leaf nofun) _
          · exact .bind (.any _) fun items after _ => .ok (.leaf nofun) after
        · split
          · exact .ok .empty _
          · exact .bind (ofEntries _) fun entries after inner =>
              .ok (Value.dictOf_tidy inner) after
        · split
          · rename_i named
            exact .ok (takeNamed?_tidy named) _
          · exact takeNumber_tidy _
      case entries =>
        intro cs
        simp only [takeEntries]
        split
        · refine .bind (.any _) fun key after _ => ?_
          simp only
          split
          · refine .bind (ofValue _) fun value after valueTidy => ?_
            simp only
            split
            · refine .bind (ofEntries _) fun entries after inner => .ok ?_ after
              exact List.forall_mem_cons.mpr ⟨valueTidy, inner⟩
            · refine .ok ?_ _
              rintro entry (_ | ⟨_, ⟨⟩⟩)
              exact valueTidy
            · exact .error _
          · exact .error _
        · exact .error _

theorem read_tidy {text : String} {value : Value} (given : read text = .ok value) :
    value.Tidy := by
  have reads := (take_tidy (depthOf (dropGap text.toList))).1 (dropGap text.toList)
  simp only [read] at given
  rcases taken : takeValue (depthOf (dropGap text.toList)) (dropGap text.toList) with
    reason | ⟨found, after⟩
  · simp only [taken, Bind.bind, Except.bind] at given
    nomatch given
  · simp only [taken, Bind.bind, Except.bind] at given
    split at given
    · obtain rfl := Except.ok.inj given
      exact reads found after taken
    · nomatch given

end Json

namespace Settings

/-! ## Variables -/

theorem readStructure_tidy {text : String} {value : Value}
    (given : readStructure text = .ok value) : value.Tidy := by
  unfold readStructure at given
  split at given
  · split at given
    · rename_i read
      obtain rfl := Except.ok.inj given
      exact Json.read_tidy read
    · obtain rfl := Except.ok.inj given
      exact .leaf nofun
    · nomatch given
  · obtain rfl := Except.ok.inj given
    exact .leaf nofun

theorem readText_tidy {text : String} {value : Value} (given : readText text = .ok value) :
    value.Tidy := by
  unfold readText at given
  split at given
  · obtain rfl := Except.ok.inj given
    exact .leaf nofun
  · split at given
    · obtain rfl := Except.ok.inj given
      exact .leaf nofun
    · split at given
      · obtain rfl := Except.ok.inj given
        exact .leaf nofun
      · split at given
        · obtain rfl := Except.ok.inj given
          exact .leaf nofun
        · exact readStructure_tidy given

theorem addVariable_tidy {found found' : Keyed Value} {entry : String × String}
    (foundTidy : ∀ row ∈ found, row.2.Tidy) (added : addVariable found entry = .ok found') :
    ∀ row ∈ found', row.2.Tidy := by
  unfold addVariable at added
  split at added
  · obtain ⟨value, read, rfl⟩ := Outcome.map_ok added
    intro row member
    rcases Keyed.mem_put member with rfl | kept
    · exact readText_tidy read
    · exact foundTidy row kept
  · obtain rfl := Except.ok.inj added
    exact foundTidy

theorem readVariables_tidy {environment : List (String × String)} {found : Keyed Value}
    (read : readVariables environment = .ok found) : ∀ row ∈ found, row.2.Tidy := by
  have onto (entries : List (String × String)) (sum : Keyed Value)
      (sumTidy : ∀ row ∈ sum, row.2.Tidy) (read : entries.foldlM addVariable sum = .ok found) :
      ∀ row ∈ found, row.2.Tidy := by
    induction entries generalizing sum with
    | nil =>
        obtain rfl := Except.ok.inj read
        exact sumTidy
    | cons entry rest ih =>
        obtain ⟨next, added, read⟩ := Outcome.bind_ok read
        exact ih next (addVariable_tidy sumTidy added) read
  exact onto _ [] nofun read

theorem assignAll_tidy {rows : List (String × Value)} (rowsTidy : ∀ row ∈ rows, row.2.Tidy)
    {entries : List (Value × Value)} (entriesTidy : (Value.dict entries).Tidy) {tree : Value}
    (assigned : assignAll (.dict entries) rows = .ok tree) :
    ∃ entries', tree = .dict entries' ∧ tree.Tidy := by
  induction rows generalizing entries with
  | nil =>
      obtain rfl := Except.ok.inj assigned
      exact ⟨entries, rfl, entriesTidy⟩
  | cons row rest ih =>
      obtain ⟨first, others⟩ := List.forall_mem_cons.mp rowsTidy
      obtain ⟨next, assigned, later⟩ := Outcome.bind_ok assigned
      obtain ⟨entries', rfl, nextTidy⟩ := assign_tidy first entriesTidy (pathOf_ne_nil _) assigned
      exact ih others nextTidy later

end Settings

end FieldRules
