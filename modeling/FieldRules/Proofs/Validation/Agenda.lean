import FieldRules.Proofs.Keyed
import FieldRules.Proofs.Validation.Meeting

/-! # What a run comes to

An agenda lists, attribute by attribute, the rules that the values of data meet. It is fixed before
the run and no check changes it. `run_eq_answer` says that a run comes to what its agenda comes to,
in every workspace that keeps the one in which the agenda was drawn up: the state of the rules
plays no part in the outcome, a fault included.
-/

namespace FieldRules

/-- The meetings of attributes. -/
abbrev Agenda := Keyed (List Meeting)

/-- The value of an attribute, or the marker of an absent one, with the rules of its entries. -/
def RuleTable.meetings (w : Workspace) (data : Keyed Value) (name : String)
    (entries : List TableEntry) : List Meeting :=
  let value := (data.get? name).getD .missing
  entries.map fun entry => ⟨name, value, entry.met w value⟩

/-- The rules that the values of data meet in a table. -/
def RuleTable.agenda (w : Workspace) (data : Keyed Value) (table : RuleTable) : Agenda :=
  table.map fun row => (row.1, meetings w data row.1 row.2)

/-- What the meetings of one attribute come to, given the messages recorded before. -/
def Meeting.settle (overrides : Keyed Value) (stops : Bool) (recorded : List Value) :
    List Meeting → List Value × Ending
  | [] => (recorded, .finished)
  | m :: rest =>
    match m.step overrides recorded.length with
    | .error fault => (recorded, .faulted fault)
    | .ok .bypass => (recorded, .finished)
    | .ok (.found messages) =>
      if stops && !(recorded ++ messages).isEmpty then (recorded ++ messages, .stopped)
      else settle overrides stops (recorded ++ messages) rest

namespace Agenda

/-- What the meetings of all attributes come to. -/
def settle (overrides : Keyed Value) (stops : Bool) : Agenda → Errors × Ending
  | [] => ([], .finished)
  | (name, meetings) :: rest =>
    match Meeting.settle overrides stops [] meetings with
    | (messages, .finished) =>
      (Run.record [] name messages ++ (settle overrides stops rest).1,
        (settle overrides stops rest).2)
    | (messages, ending) => (Run.record [] name messages, ending)

/-- The errors and the verdict of an agenda. -/
def answer (overrides : Keyed Value) (stops : Bool) (agenda : Agenda) : RunResult :=
  match agenda.settle overrides stops with
  | (errors, .finished) => ⟨errors, .ok errors.isEmpty⟩
  | (errors, .stopped) => ⟨errors, .ok false⟩
  | (errors, .faulted fault) => ⟨errors, .error fault⟩

end Agenda

namespace RuleTable

variable {w w' : Workspace}

theorem agenda_cons (w : Workspace) (data : Keyed Value) (name : String)
    (entries : List TableEntry) (rest : RuleTable) :
    agenda w data ((name, entries) :: rest) =
      (name, meetings w data name entries) :: agenda w data rest := rfl

theorem agenda_names (w : Workspace) (data : Keyed Value) (table : RuleTable) :
    (table.agenda w data).names = Keyed.names table := by
  simp only [agenda, Keyed.names, List.map_map, Function.comp_def]

theorem meetings_name {data : Keyed Value} {name : String} {entries : List TableEntry}
    {m : Meeting} (member : m ∈ meetings w data name entries) : m.name = name := by
  obtain ⟨entry, _, rfl⟩ := List.mem_map.mp member
  rfl

end RuleTable

/-- What is recorded of an attribute without errors comes last. -/
theorem Run.record_eq {errors : Errors} {name : String} (absent : name ∉ errors.names)
    (messages : List Value) :
    record errors name messages = errors ++ record [] name messages := by
  simp only [record]
  split
  · rw [List.append_nil]
  · exact Keyed.put_of_not_mem absent messages

theorem Run.record_names (name : String) (messages : List Value) :
    (record [] name messages).names ⊆ [name] := by
  simp only [record]
  split <;> simp [Keyed.names, Keyed.put]

namespace Run

variable {w w' : Workspace}

theorem checkAttribute_met (registered : w.registry.InUse w.rules) (input : RunInput)
    (name : String) {entries : List TableEntry} (used : ∀ entry ∈ entries, entry.InUse w.rules)
    (kept : w.KeptIn w') (recorded : List Value) :
    w.KeptIn (checkAttribute input name (input.valueOf name) recorded w' entries).2 ∧
      (checkAttribute input name (input.valueOf name) recorded w' entries).1 =
        Meeting.settle input.overrides input.stops recorded
          (RuleTable.meetings w input.data name entries) := by
  induction entries generalizing recorded w' with
  | nil => exact ⟨kept, rfl⟩
  | cons entry rest ih =>
      have restUsed : ∀ other ∈ rest, other.InUse w.rules :=
        fun other member => used other (List.mem_cons_of_mem entry member)
      obtain ⟨stepKept, stepMet⟩ := step_met kept registered (used entry List.mem_cons_self)
        input.overrides name (input.valueOf name) recorded.length
      have first : Meeting.mk name (input.valueOf name) (entry.met w (input.valueOf name)) ::
          RuleTable.meetings w input.data name rest =
            RuleTable.meetings w input.data name (entry :: rest) := rfl
      rw [← first]
      simp only [checkAttribute, Meeting.settle, ← stepMet]
      rcases stepped : step input.overrides name (input.valueOf name) recorded.length entry w'
        with ⟨outcome, w₁⟩
      rw [stepped] at stepKept
      cases outcome with
      | error fault => exact ⟨stepKept, rfl⟩
      | ok step =>
          cases step with
          | bypass => exact ⟨stepKept, rfl⟩
          | found messages =>
              simp only
              split
              · exact ⟨stepKept.noting _ _, rfl⟩
              · exact ih restUsed stepKept (recorded ++ messages)

theorem checkAttributes_met (input : RunInput) {table : RuleTable} (sound : table.Sound w)
    (kept : w.KeptIn w') (errors : Errors)
    (fresh : ∀ name ∈ Keyed.names table, name ∉ errors.names) :
    w.KeptIn (checkAttributes input errors w' table).2 ∧
      (checkAttributes input errors w' table).1 =
        (errors ++ ((table.agenda w input.data).settle input.overrides input.stops).1,
          ((table.agenda w input.data).settle input.overrides input.stops).2) := by
  induction table generalizing errors w' with
  | nil => exact ⟨kept, by simp [checkAttributes, RuleTable.agenda, Agenda.settle]⟩
  | cons row rest ih =>
      obtain ⟨name, entries⟩ := row
      obtain ⟨absent, restDistinct⟩ := List.nodup_cons.mp sound.distinct
      have restSound : RuleTable.Sound w rest :=
        ⟨restDistinct, fun row member => sound.used row (List.mem_cons_of_mem _ member),
          sound.registered⟩
      -- Errors are recorded by putting them, which comes to appending them only under a new name.
      have newName : name ∉ errors.names := fresh name List.mem_cons_self
      obtain ⟨attributeKept, attributeMet⟩ := checkAttribute_met sound.registered input name
        (sound.used (name, entries) List.mem_cons_self) kept []
      simp only [checkAttributes, RuleTable.agenda_cons, Agenda.settle, ← attributeMet]
      rcases checked : checkAttribute input name (input.valueOf name) [] w' entries
        with ⟨⟨messages, ending⟩, w₁⟩
      rw [checked] at attributeKept
      cases ending with
      | stopped => exact ⟨attributeKept, by simp only [record_eq newName]⟩
      | faulted fault => exact ⟨attributeKept, by simp only [record_eq newName]⟩
      | finished =>
          have restFresh : ∀ other ∈ Keyed.names rest,
              other ∉ (record errors name messages).names := by
            intro other member
            have notFirst : other ≠ name := fun same => absent (same ▸ member)
            rw [record_eq newName, Keyed.names, List.map_append, List.mem_append, not_or]
            refine ⟨fresh other (List.mem_cons_of_mem _ member), fun inside => notFirst ?_⟩
            exact List.mem_singleton.mp (record_names name messages inside)
          obtain ⟨restKept, restMet⟩ := ih restSound attributeKept
            (record errors name messages) restFresh
          refine ⟨restKept, ?_⟩
          rw [record_eq newName] at restMet
          simp only [record_eq newName, restMet, List.append_assoc]

end Run

variable {w w' : Workspace}

/-- A run comes to what its agenda comes to. -/
theorem run_eq_answer (input : RunInput) {table : RuleTable} (sound : table.Sound w)
    (kept : w.KeptIn w') :
    (run input table w').1 = (table.agenda w input.data).answer input.overrides input.stops := by
  obtain ⟨_, checked⟩ := Run.checkAttributes_met input sound kept []
    fun _ _ => List.not_mem_nil
  rcases ran : Run.checkAttributes input [] w' table with ⟨⟨errors, ending⟩, w₁⟩
  rw [ran] at checked
  have settled : (table.agenda w input.data).settle input.overrides input.stops =
      (errors, ending) := checked.symm
  simp only [run, Agenda.answer, ran, settled]
  cases ending <;> rfl

/-- A run keeps what there was before. -/
theorem run_kept (input : RunInput) {table : RuleTable} (sound : table.Sound w)
    (kept : w.KeptIn w') : w.KeptIn (run input table w').2 := by
  obtain ⟨checkedKept, _⟩ := Run.checkAttributes_met input sound kept []
    fun _ _ => List.not_mem_nil
  simp only [run]
  rcases ran : Run.checkAttributes input [] w' table with ⟨⟨errors, ending⟩, w₁⟩
  rw [ran] at checkedKept
  cases ending with
  | finished => exact checkedKept.noting _ _
  | stopped | faulted => exact checkedKept

end FieldRules
