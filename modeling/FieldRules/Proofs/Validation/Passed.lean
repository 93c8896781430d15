import FieldRules.Proofs.Registry.Tables
import FieldRules.Proofs.Validation.Independence
import FieldRules.Proofs.Validation.Stopping
import FieldRules.Session.Validation

/-! # The values that passed

A result names the values of those attributes that a run recorded no errors of. In a full run these
are the attributes that are valid on their own. A run in stop mode does not look at the attributes
behind the first that has errors, and so the result names their values whatever their rules say.
-/

namespace FieldRules

variable {overrides : Keyed Value} {stops : Bool} {w : Workspace}

namespace Agenda

/-- Of the errors of the full run a run in stop mode has those of the first attribute. -/
theorem answer_names {agenda : Agenda} (full : ∀ row ∈ agenda, Finishes overrides row) :
    (agenda.answer overrides stops).errors.names =
      if stops then (Keyed.names (agenda.flatMap (entryOf overrides))).take 1
      else Keyed.names (agenda.flatMap (entryOf overrides)) := by
  cases stops with
  | false => rw [answer_full.mpr ⟨full, rfl, rfl⟩]; rfl
  | true =>
      rcases settle_stopping full with ⟨none, quiet⟩ |
        ⟨name, _, messages, more, later, _, _, all, stopped⟩
      · simp only [answer, quiet, none]
        rfl
      · simp only [answer, stopped, all]
        rfl

/-- In both modes a run is valid just if the full run has no errors. -/
theorem answer_verdict {agenda : Agenda} (full : ∀ row ∈ agenda, Finishes overrides row) :
    (agenda.answer overrides stops).verdict =
      .ok (agenda.flatMap (entryOf overrides)).isEmpty := by
  cases stops with
  | false => rw [answer_full.mpr ⟨full, rfl, rfl⟩]
  | true =>
      rcases settle_stopping full with ⟨none, quiet⟩ |
        ⟨name, _, messages, more, later, _, _, all, stopped⟩
      · simp only [answer, quiet, none]
      · simp only [answer, stopped, all]
        rfl

/-- An attribute is left without errors if the full run has none of it, or if a run in stop mode
    ends before it. -/
theorem not_mem_answer_names {before after : Agenda} {row : String × List Meeting}
    (distinct : (Keyed.names (before ++ row :: after)).Nodup)
    (full : ∀ other ∈ before ++ row :: after, Finishes overrides other) :
    row.1 ∉ (answer overrides stops (before ++ row :: after)).errors.names ↔
      entryOf overrides row = [] ∨ stops = true ∧ before.flatMap (entryOf overrides) ≠ [] := by
  rw [Keyed.names, List.map_append, List.map_cons, List.nodup_append, List.nodup_cons] at distinct
  obtain ⟨_, ⟨behind, _⟩, apart⟩ := distinct
  have notBefore : row.1 ∉ Keyed.names (before.flatMap (entryOf overrides)) := fun inside =>
    apart row.1 ((flatMap_entryOf_names before).subset inside) row.1 List.mem_cons_self rfl
  have notAfter : row.1 ∉ Keyed.names (after.flatMap (entryOf overrides)) := fun inside =>
    behind ((flatMap_entryOf_names after).subset inside)
  have all : Keyed.names ((before ++ row :: after).flatMap (entryOf overrides)) =
      Keyed.names (before.flatMap (entryOf overrides)) ++
        (Keyed.names (entryOf overrides row) ++
          Keyed.names (after.flatMap (entryOf overrides))) := by
    simp only [Keyed.names, List.flatMap_append, List.flatMap_cons, List.map_append]
  rw [answer_names full, all]
  by_cases clean : entryOf overrides row = []
  · have absent : row.1 ∉ Keyed.names (before.flatMap (entryOf overrides)) ++
        ([] ++ Keyed.names (after.flatMap (entryOf overrides))) := by
      simp [notBefore, notAfter]
    rw [clean]
    refine ⟨fun _ => .inl rfl, fun _ => ?_⟩
    split
    · exact fun inside => absent (List.take_subset _ _ inside)
    · exact absent
  · have own : Keyed.names (entryOf overrides row) = [row.1] := by
      simp only [entryOf, Run.record] at clean ⊢
      split at clean
      · exact absurd rfl clean
      · rename_i filled
        rw [if_neg filled]
        rfl
    rw [own]
    cases stops with
    | false => simp [clean]
    | true =>
        cases here : before.flatMap (entryOf overrides) with
        | nil => simp [clean, Keyed.names]
        | cons first others =>
            rw [here] at notBefore
            have different : row.1 ≠ first.1 := fun same => notBefore (same ▸ List.mem_cons_self)
            simp [Keyed.names, different]

end Agenda

/-- Of a table only the names decide about the values that passed. -/
theorem passedData_names (data : Keyed Value) (table : RuleTable) (errors : Errors) :
    passedData data table errors = (Keyed.names table).filterMap fun name =>
      if errors.has name then none else (data.get? name).map fun value => (name, value) := by
  rw [Keyed.names, List.filterMap_map]
  rfl

theorem mem_passedData {data : Keyed Value} {table : RuleTable} {errors : Errors} {name : String}
    {value : Value} :
    (name, value) ∈ passedData data table errors ↔
      name ∈ Keyed.names table ∧ data.get? name = some value ∧ name ∉ errors.names := by
  rw [passedData, List.mem_filterMap]
  constructor
  · rintro ⟨⟨_, entries⟩, member, given⟩
    simp only at given
    split at given
    · simp at given
    · rename_i clean
      obtain ⟨_, found, same⟩ := Option.map_eq_some_iff.mp given
      obtain ⟨rfl, rfl⟩ := Prod.mk.inj same
      exact ⟨Keyed.mem_names member, found, fun inside => clean (Keyed.has_iff.mpr inside)⟩
  · rintro ⟨named, found, clean⟩
    obtain ⟨⟨own, entries⟩, member, rfl⟩ := List.mem_map.mp named
    have without : ¬errors.has own = true := fun inside => clean (Keyed.has_iff.mp inside)
    exact ⟨(own, entries), member, by simpa [without] using found⟩

namespace Validator

/-- What a run of a validator comes to. -/
def answer (v : Validator) (w : Workspace) : RunResult :=
  (run ⟨v.data, v.overrides, v.stops⟩ v.table w).1

/-- The validator that is left of one attribute: its rules and its value, if there is one. -/
def alone (v : Validator) (row : String × List TableEntry) : Validator :=
  { v with
    data := ((v.data.get? row.1).map fun value => (row.1, value)).toList
    table := [row] }

/-- Whether an attribute on its own is valid. -/
def verdictAlone (v : Validator) (w : Workspace) (row : String × List TableEntry) : Outcome Bool :=
  ((v.alone row).answer w).verdict

/-- The errors of an attribute in a full run. -/
def errorsOf (v : Validator) (w : Workspace) (row : String × List TableEntry) : Errors :=
  Agenda.entryOf v.overrides (row.1, RuleTable.meetings w v.data row.1 row.2)

/-- Whether a full run returns. -/
def RunsFully (v : Validator) (w : Workspace) : Prop :=
  ∃ valid, (Validator.answer { v with stops := false } w).verdict = .ok valid

variable {v : Validator}

theorem answer_eq (sound : v.table.Sound w) :
    v.answer w = (v.table.agenda w v.data).answer v.overrides v.stops :=
  run_eq_answer ⟨v.data, v.overrides, v.stops⟩ sound (.refl w)

theorem RunsFully.finishes (sound : v.table.Sound w) (full : v.RunsFully w) :
    ∀ row ∈ v.table.agenda w v.data, Agenda.Finishes v.overrides row := by
  obtain ⟨valid, returned⟩ := full
  have answered := answer_eq (v := { v with stops := false }) sound
  rw [answered] at returned
  exact (Agenda.answer_full.mp (by rw [← returned])).1

theorem alone_get? (v : Validator) (row : String × List TableEntry) :
    (v.alone row).data.get? row.1 = v.data.get? row.1 := by
  simp only [alone]
  cases v.data.get? row.1 with
  | none => rfl
  | some value => simp [Keyed.get?_cons]

/-- An attribute on its own is valid just if a full run has no errors of it. -/
theorem verdictAlone_eq (sound : v.table.Sound w) (full : v.RunsFully w)
    {row : String × List TableEntry} (member : row ∈ v.table) :
    v.verdictAlone w row = .ok (v.errorsOf w row).isEmpty := by
  have finishes := full.finishes sound _ (List.mem_map.mpr ⟨row, member, rfl⟩)
  have ownSound : RuleTable.Sound w [row] :=
    sound.sub (by simp [Keyed.names]) (List.cons_subset.mpr ⟨member, List.nil_subset _⟩)
  have sameMeetings := RuleTable.meetings_kept (.refl w) (v.alone_get? row) (sound.used row member)
  have ownAgenda : RuleTable.agenda w (v.alone row).data [row] =
      [(row.1, RuleTable.meetings w v.data row.1 row.2)] := by
    rw [← sameMeetings]
    rfl
  show (run ⟨(v.alone row).data, v.overrides, v.stops⟩ [row] w).1.verdict = _
  rw [run_eq_answer _ ownSound (.refl w), ownAgenda,
    Agenda.answer_verdict (List.forall_mem_singleton.mpr finishes), List.flatMap_singleton]
  rfl

/-- A full run has errors of a part of the table just if an attribute there fails on its own. -/
theorem errors_ne_nil (sound : v.table.Sound w) (full : v.RunsFully w) {rows : RuleTable}
    (part : ∀ row ∈ rows, row ∈ v.table) :
    (rows.agenda w v.data).flatMap (Agenda.entryOf v.overrides) ≠ [] ↔
      ∃ row ∈ rows, v.verdictAlone w row = .ok false := by
  have same : (rows.agenda w v.data).flatMap (Agenda.entryOf v.overrides) =
      rows.flatMap (v.errorsOf w) := List.flatMap_map ..
  rw [same, ne_eq, List.flatMap_eq_nil_iff, Classical.not_forall]
  constructor
  · rintro ⟨row, failed⟩
    obtain ⟨inside, failed⟩ := Classical.not_imp.mp failed
    refine ⟨row, inside, ?_⟩
    simp [verdictAlone_eq sound full (part row inside), failed]
  · rintro ⟨row, inside, failed⟩
    rw [verdictAlone_eq sound full (part row inside)] at failed
    refine ⟨row, Classical.not_imp.mpr ⟨inside, fun none => ?_⟩⟩
    simp [none] at failed

/-- The value of an attribute is named just if the attribute is valid on its own or, in stop mode,
    stands behind another one that is not. -/
theorem mem_passed (sound : v.table.Sound w) (full : v.RunsFully w) {before after : RuleTable}
    {row : String × List TableEntry} (split : v.table = before ++ row :: after) (value : Value) :
    (row.1, value) ∈ passedData v.data v.table (v.answer w).errors ↔
      v.data.get? row.1 = some value ∧ (v.verdictAlone w row = .ok true ∨
        v.stops = true ∧ ∃ other ∈ before, v.verdictAlone w other = .ok false) := by
  have member : row ∈ v.table := split ▸ List.mem_append_right before List.mem_cons_self
  have earlier : ∀ other ∈ before, other ∈ v.table := fun other inside =>
    split ▸ List.mem_append_left _ inside
  have agendaSplit : v.table.agenda w v.data =
      before.agenda w v.data ++
        (row.1, RuleTable.meetings w v.data row.1 row.2) :: after.agenda w v.data := by
    rw [split, RuleTable.agenda, List.map_append, List.map_cons]
    rfl
  have distinct := (sound.proper v.data).distinct
  have finishes := full.finishes sound
  -- Without recorded errors does not mean visited: this is where stop mode comes in.
  have unmarked : row.1 ∉ (v.answer w).errors.names ↔ v.errorsOf w row = [] ∨
      v.stops = true ∧ (before.agenda w v.data).flatMap (Agenda.entryOf v.overrides) ≠ [] := by
    rw [agendaSplit] at distinct finishes
    rw [answer_eq sound, agendaSplit]
    exact Agenda.not_mem_answer_names distinct finishes
  rw [mem_passedData, unmarked, errors_ne_nil sound full earlier, verdictAlone_eq sound full member,
    Except.ok.injEq, List.isEmpty_iff]
  exact ⟨fun given => given.2, fun given => ⟨List.mem_map.mpr ⟨row, member, rfl⟩, given⟩⟩

end Validator

/-- A result tells of the run that it is made by. -/
theorem Session.result_eq {session : Session} {id : Nat} {v : Validator}
    (held : session.validators.item id = v) :
    (result id session).1 =
      (v.answer (session.workspace v.registry)).verdict.map fun valid =>
        { valid
          data := passedData v.data v.table (v.answer (session.workspace v.registry)).errors
          errors := (v.answer (session.workspace v.registry)).errors } := by
  subst held
  simp only [result, validate, validatorOf, runValidator, Task.bind_eq, Task.get_eq, Task.pure_eq,
    Validator.answer]
  rcases ran : run _ _ _ with ⟨⟨errors, verdict⟩, w⟩
  cases verdict with
  | error fault => rfl
  | ok valid => simp [Except.map]

/-- The values of a result. If no rule raises, a result names the value of an attribute just if the
    attribute is valid on its own or, in stop mode, stands behind another one that is not. So all
    of its values passed unless, in stop mode, an attribute that has a value and is not valid
    stands behind another one that is not. -/
theorem Session.result_passed {session : Session} {id : Nat} {v : Validator} {w : Workspace}
    (held : session.validators.item id = v) (here : session.workspace v.registry = w)
    (sound : v.table.Sound w) (full : v.RunsFully w) :
    ∃ found, (result id session).1 = .ok found ∧
      (∀ before row after value, v.table = before ++ row :: after →
        ((row.1, value) ∈ found.data ↔ v.data.get? row.1 = some value ∧
          (v.verdictAlone w row = .ok true ∨
            v.stops = true ∧ ∃ other ∈ before, v.verdictAlone w other = .ok false))) ∧
      ((∀ name value, (name, value) ∈ found.data →
          ∃ entries, (name, entries) ∈ v.table ∧ v.verdictAlone w (name, entries) = .ok true) ↔
        (v.stops = true → ∀ before row after, v.table = before ++ row :: after →
          v.data.has row.1 = true → (∃ other ∈ before, v.verdictAlone w other = .ok false) →
            v.verdictAlone w row = .ok true)) := by
  subst here
  obtain ⟨passed, returned⟩ : ∃ passed, (v.answer (session.workspace v.registry)).verdict =
      .ok passed := by
    rw [Validator.answer_eq sound, Agenda.answer_verdict (full.finishes sound)]
    exact ⟨_, rfl⟩
  rw [result_eq held, returned]
  refine ⟨_, rfl, fun before row after value split => Validator.mem_passed sound full split value, ?_⟩
  constructor
  · intro allPassed stops before row after split present failed
    obtain ⟨value, found⟩ := Option.isSome_iff_exists.mp present
    obtain ⟨entries, member, passes⟩ := allPassed row.1 value
      ((Validator.mem_passed sound full split value).mpr ⟨found, .inr ⟨stops, failed⟩⟩)
    have rowMember : row ∈ v.table := split ▸ List.mem_append_right before List.mem_cons_self
    have sameEntries := Keyed.value_unique sound.distinct member rowMember
    rwa [sameEntries] at passes
  · intro condition name value inside
    obtain ⟨member, _⟩ := mem_passedData.mp inside
    obtain ⟨⟨own, entries⟩, rowMember, rfl⟩ := List.mem_map.mp member
    refine ⟨entries, rowMember, ?_⟩
    obtain ⟨before, after, split⟩ := List.append_of_mem rowMember
    obtain ⟨found, passes | ⟨stops, failed⟩⟩ := (Validator.mem_passed sound full split value).mp inside
    · exact passes
    · exact condition stops before (own, entries) after split
        (Option.isSome_iff_exists.mpr ⟨value, found⟩) failed

namespace Sample

/-- A validator in stop mode. The first attribute is absent and the second has no value, though both
    are required. -/
def validator : Validator where
  registry := 0
  data := [("b", .none)]
  overrides := []
  stops := true
  table := [("a", [.bound 2]), ("b", [.bound 2])]

/-- A session with that validator. -/
def session : Session where
  rules := workspace.rules
  validators := (Shelf.empty.add validator).2

theorem validator_sound : validator.table.Sound (session.workspace 0) where
  distinct := by decide
  used := by simp [validator, TableEntry.InUse, session, Session.workspace, workspace]
  registered := (Workspace.Closed.ofStandard rfl).registered

end Sample

set_option maxRecDepth 4000 in
theorem Session.result_passed_sample :
    ∃ found, (result 0 Sample.session).1 = .ok found ∧ ("b", .none) ∈ found.data ∧
      ∀ value, ("a", value) ∉ found.data := by
  have held : Sample.session.validators.item 0 = Sample.validator := rfl
  have full : Sample.validator.RunsFully (Sample.session.workspace 0) := ⟨false, by rfl⟩
  obtain ⟨found, returned, named, _⟩ := result_passed held rfl Sample.validator_sound full
  refine ⟨found, returned, ?_, ?_⟩
  · apply (named [("a", [.bound 2])] ("b", [.bound 2]) [] .none rfl).mpr
    exact ⟨rfl, .inr ⟨rfl, ("a", [.bound 2]), List.mem_singleton_self _, by rfl⟩⟩
  · intro value inside
    have given := ((named [] ("a", [.bound 2]) [("b", [.bound 2])] value rfl).mp inside).1
    exact nomatch given

set_option maxRecDepth 4000 in
/-- In stop mode a result may name a value that does not pass. -/
theorem Session.result_unsound :
    ∃ found, (result 0 Sample.session).1 = .ok found ∧ ("b", .none) ∈ found.data ∧
      ∃ entries, ("b", entries) ∈ Sample.validator.table ∧
        Sample.validator.verdictAlone (Sample.session.workspace 0) ("b", entries) = .ok false := by
  have ended : (result 0 Sample.session).1 =
      .ok ⟨false, [("b", .none)], [("a", [.str "The a field is required"])]⟩ := by rfl
  refine ⟨_, ended, List.mem_singleton_self _, [.bound 2], ?_, by rfl⟩
  exact List.mem_cons_of_mem _ (List.mem_singleton_self _)

end FieldRules
