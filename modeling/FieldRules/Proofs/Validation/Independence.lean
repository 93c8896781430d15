import FieldRules.Proofs.Validation.Full

/-! # Independence of attributes

In a full run the errors of an attribute depend on its own value and its own entries only. So a run
of some of the attributes has just their errors, the order of attributes is the order of errors and
nothing else, and data that no attribute of the table names play no part.
-/

namespace FieldRules

variable {overrides : Keyed Value} {w w' : Workspace}

namespace Agenda

theorem entryOf_name {row : String × List Meeting} {name : String} {found : List Value}
    (member : (name, found) ∈ entryOf overrides row) : name = row.1 :=
  List.mem_singleton.mp (Run.record_names _ _ (Keyed.mem_names member))

theorem entryOf_names (row : String × List Meeting) :
    (entryOf overrides row).names.Sublist [row.1] := by
  simp only [entryOf, Run.record]
  split
  · exact List.nil_sublist _
  · exact List.Sublist.refl _

theorem flatMap_entryOf_names (agenda : Agenda) :
    (Keyed.names (agenda.flatMap (entryOf overrides))).Sublist agenda.names := by
  induction agenda with
  | nil => exact List.Sublist.refl _
  | cons row rest ih =>
      rw [List.flatMap_cons, Keyed.names, List.map_append]
      exact (entryOf_names row).append ih

/-- Leaving out attributes leaves out their errors. -/
theorem filter_entryOf (p : String → Bool) (agenda : Agenda) :
    (agenda.flatMap (entryOf overrides)).filter (fun entry => p entry.1) =
      (agenda.filter fun row => p row.1).flatMap (entryOf overrides) := by
  rw [List.filter_flatMap]
  induction agenda with
  | nil => rfl
  | cons row rest ih =>
      rw [List.flatMap_cons, ih, List.filter_cons]
      by_cases kept : p row.1 = true
      · have all : (entryOf overrides row).filter (fun entry => p entry.1) =
            entryOf overrides row := by
          apply List.filter_eq_self.mpr
          intro entry member
          rw [entryOf_name member]
          exact kept
        rw [all, if_pos kept, List.flatMap_cons]
      · have none : (entryOf overrides row).filter (fun entry => p entry.1) = [] := by
          apply List.filter_eq_nil_iff.mpr
          intro entry member
          rw [entryOf_name member]
          exact kept
        rw [none, if_neg kept, List.nil_append]

end Agenda

namespace RuleTable

/-- The rules that a value meets do not change as long as a workspace is kept. -/
theorem meetings_kept (kept : w.KeptIn w') {data data' : Keyed Value} {name : String}
    (sameValue : data'.get? name = data.get? name) {entries : List TableEntry}
    (used : ∀ entry ∈ entries, entry.InUse w.rules) :
    meetings w' data' name entries = meetings w data name entries := by
  simp only [meetings, sameValue]
  apply List.map_congr_left
  intro entry member
  rw [TableEntry.met_kept kept (used entry member)]

theorem Sound.sub {table table' : RuleTable} (sound : table.Sound w)
    (distinct : (Keyed.names table').Nodup) (sub : table' ⊆ table) : table'.Sound w where
  distinct := distinct
  used row member := sound.used row (sub member)
  registered := sound.registered

/-- The errors of an attribute are those of its own meetings. -/
theorem get?_errors {table : RuleTable} (sound : table.Sound w) {data : Keyed Value}
    {name : String} {found : List Value} :
    Keyed.get? ((table.agenda w data).flatMap (Agenda.entryOf overrides)) name = some found ↔
      ∃ entries, Keyed.get? table name = some entries ∧
        (name, found) ∈ Agenda.entryOf overrides (name, meetings w data name entries) := by
  have errorsDistinct : (Keyed.names
      ((table.agenda w data).flatMap (Agenda.entryOf overrides))).Nodup :=
    (Agenda.flatMap_entryOf_names _).nodup (sound.proper data).distinct
  rw [Keyed.get?_eq_some errorsDistinct, List.mem_flatMap]
  constructor
  · rintro ⟨_, member, recorded⟩
    obtain ⟨⟨own, entries⟩, tableMember, rfl⟩ := List.mem_map.mp member
    obtain rfl := Agenda.entryOf_name recorded
    exact ⟨entries, Keyed.get?_of_mem sound.distinct tableMember, recorded⟩
  · rintro ⟨entries, found, recorded⟩
    exact ⟨_, List.mem_map.mpr ⟨(name, entries), Keyed.mem_of_get? found, rfl⟩, recorded⟩

/-- In tables that give an attribute the same entries, and data that give it the same value, its
    errors are the same. -/
theorem get?_errors_local {table table' : RuleTable} (sound : table.Sound w)
    (sound' : table'.Sound w') (kept : w.KeptIn w') {data data' : Keyed Value} {name : String}
    (sameEntries : Keyed.get? table' name = Keyed.get? table name)
    (sameValue : data'.get? name = data.get? name) :
    Keyed.get? ((table'.agenda w' data').flatMap (Agenda.entryOf overrides)) name =
      Keyed.get? ((table.agenda w data).flatMap (Agenda.entryOf overrides)) name := by
  apply Option.ext
  intro found
  rw [get?_errors sound', get?_errors sound, sameEntries]
  have sameMeetings : ∀ entries, Keyed.get? table name = some entries →
      meetings w' data' name entries = meetings w data name entries :=
    fun entries here => meetings_kept kept sameValue
      (sound.used (name, entries) (Keyed.mem_of_get? here))
  constructor
  · rintro ⟨entries, here, recorded⟩
    exact ⟨entries, here, sameMeetings entries here ▸ recorded⟩
  · rintro ⟨entries, here, recorded⟩
    exact ⟨entries, here, (sameMeetings entries here).symm ▸ recorded⟩

theorem Sound.part {table : RuleTable} (sound : table.Sound w) (p : String → Bool) :
    RuleTable.Sound w (table.filter fun row => p row.1) := by
  refine sound.sub ?_ List.filter_sublist.subset
  rw [Keyed.names_filter]
  exact sound.distinct.filter p

theorem Sound.reordered {table table' : RuleTable} (sound : table.Sound w)
    (permuted : table'.Perm table) : table'.Sound w := by
  have namesPermuted : (Keyed.names table').Perm (Keyed.names table) := permuted.map _
  exact sound.sub (namesPermuted.nodup_iff.mpr sound.distinct) permuted.subset

/-- A part of a table has the errors of that part. -/
theorem answer_part {table : RuleTable} {data : Keyed Value}
    (finishes : ∀ row ∈ table.agenda w data, Agenda.Finishes overrides row) (p : String → Bool) :
    (RuleTable.agenda w data (table.filter fun row => p row.1)).answer overrides false =
      let errors := (table.agenda w data).flatMap (Agenda.entryOf overrides)
      ⟨errors.filter fun entry => p entry.1,
        .ok (errors.filter fun entry => p entry.1).isEmpty⟩ := by
  have partAgenda : RuleTable.agenda w data (table.filter fun row => p row.1) =
      (table.agenda w data).filter fun row => p row.1 := by
    simp only [agenda, List.filter_map, Function.comp_def]
  rw [partAgenda]
  refine Agenda.answer_full.mpr ⟨?_, Agenda.filter_entryOf p _, rfl⟩
  intro row member
  exact finishes row (List.mem_filter.mp member).1

/-- In another order the errors are the same but for their order. -/
theorem answer_reordered {table table' : RuleTable} (sound : table.Sound w) {data : Keyed Value}
    (finishes : ∀ row ∈ table.agenda w data, Agenda.Finishes overrides row)
    (permuted : table'.Perm table) :
    let errors := (table.agenda w data).flatMap (Agenda.entryOf overrides)
    ∃ errors', (table'.agenda w data).answer overrides false = ⟨errors', .ok errors.isEmpty⟩ ∧
      errors'.Perm errors ∧ ∀ name, Keyed.get? errors' name = Keyed.get? errors name := by
  intro errors
  have agendaPermuted : (table'.agenda w data).Perm (table.agenda w data) := permuted.map _
  have errorsPermuted := agendaPermuted.flatMap_right (Agenda.entryOf overrides)
  refine ⟨(table'.agenda w data).flatMap (Agenda.entryOf overrides), ?_, errorsPermuted, ?_⟩
  · refine Agenda.answer_full.mpr ⟨?_, rfl, ?_⟩
    · intro row member
      exact finishes row (agendaPermuted.subset member)
    · rw [errorsPermuted.isEmpty_eq]
  · apply Keyed.get?_perm errorsPermuted
    exact (Agenda.flatMap_entryOf_names _).nodup ((sound.reordered permuted).proper data).distinct

theorem agenda_unnamed {table : RuleTable} (sound : table.Sound w) {data data' : Keyed Value}
    (sameValues : ∀ name ∈ Keyed.names table, data'.get? name = data.get? name) :
    table.agenda w data' = table.agenda w data := by
  apply List.map_congr_left
  rintro ⟨name, entries⟩ member
  rw [meetings_kept (.refl w) (sameValues name (Keyed.mem_names member))
    (sound.used (name, entries) member)]

end RuleTable

/-- Attributes are independent of each other in full runs.  Let a full run return.  Then in every
    workspace that keeps its own, the errors of an attribute are the same in any full run that
    gives the attribute the same value and the same entries; a run of those attributes that `p`
    chooses has just their errors; changing the order of attributes changes that of the errors and
    nothing else; and data that no attribute of the table names make no difference. -/
theorem run_independent {data : Keyed Value} {table : RuleTable} (sound : table.Sound w)
    {errors : Errors} {valid : Bool}
    (full : (run ⟨data, overrides, false⟩ table w).1 = ⟨errors, .ok valid⟩)
    (kept : w.KeptIn w') :
    (∀ data' table' errors' valid', RuleTable.Sound w' table' →
      (run ⟨data', overrides, false⟩ table' w').1 = ⟨errors', .ok valid'⟩ →
      ∀ name, Keyed.get? table' name = Keyed.get? table name →
        data'.get? name = data.get? name → errors'.get? name = errors.get? name) ∧
    (∀ p : String → Bool,
      (run ⟨data, overrides, false⟩ (table.filter fun row => p row.1) w').1 =
        ⟨errors.filter fun entry => p entry.1,
          .ok (errors.filter fun entry => p entry.1).isEmpty⟩) ∧
    (∀ table', table'.Perm table → ∃ errors',
      (run ⟨data, overrides, false⟩ table' w').1 = ⟨errors', .ok valid⟩ ∧
        errors'.Perm errors ∧ ∀ name, errors'.get? name = errors.get? name) ∧
    ∀ data', (∀ name ∈ Keyed.names table, data'.get? name = data.get? name) →
      (run ⟨data', overrides, false⟩ table w').1 = ⟨errors, .ok valid⟩ := by
  rw [run_eq_answer _ sound (.refl w)] at full
  obtain ⟨finishes, rfl, rfl⟩ := Agenda.answer_full.mp full
  refine ⟨?_, ?_, ?_, ?_⟩
  · intro data' table' errors' valid' sound' full' name sameEntries sameValue
    rw [run_eq_answer _ sound' (.refl w')] at full'
    obtain ⟨_, rfl, rfl⟩ := Agenda.answer_full.mp full'
    exact RuleTable.get?_errors_local sound sound' kept sameEntries sameValue
  · intro p
    rw [run_eq_answer _ (sound.part p) kept]
    exact RuleTable.answer_part finishes p
  · intro table' permuted
    rw [run_eq_answer _ (sound.reordered permuted) kept]
    exact RuleTable.answer_reordered sound finishes permuted
  · intro data' sameValues
    rw [run_eq_answer _ sound kept, RuleTable.agenda_unnamed sound sameValues]
    exact full

theorem run_independent_sample :
    let later := (run Sample.input Sample.table Sample.workspace).2
    (run Sample.input (Sample.table.filter fun row => row.1 == "code") later).1 =
        ⟨[("code", [.str "Too short", .str "Refused"])], .ok false⟩ ∧
      ∃ errors, (run Sample.input Sample.table.reverse later).1 = ⟨errors, .ok false⟩ ∧
        errors.Perm Sample.errors := by
  intro later
  have kept : Sample.workspace.KeptIn later := run_kept Sample.input Sample.table_sound (.refl _)
  obtain ⟨_, parts, orders, _⟩ := run_independent Sample.table_sound Sample.run_errors kept
  obtain ⟨errors, returned, permuted, _⟩ :=
    orders Sample.table.reverse (List.reverse_perm Sample.table)
  exact ⟨parts fun name => name == "code", errors, returned, permuted⟩

end FieldRules
