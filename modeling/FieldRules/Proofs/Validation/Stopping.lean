import FieldRules.Proofs.Validation.Full

/-! # Stopping at the first failure

A run in stop mode is the beginning of the full run: it goes on like the full run while nothing
fails, and ends with the messages of the first failure. So it has the verdict of the full run, and
of its errors the first messages of the first attribute.
-/

namespace FieldRules

variable {overrides : Keyed Value}

/-- These are the messages of the first failure of an attribute. -/
def Meeting.FirstMessages (overrides : Keyed Value) (meetings : List Meeting)
    (messages : List Value) : Prop :=
  ∃ first, (effective meetings).find? fails = some first ∧
    first.messages overrides 0 = .ok messages

theorem Meeting.FirstMessages.ne_nil {meetings : List Meeting} {messages : List Value}
    (given : FirstMessages overrides meetings messages) : messages ≠ [] := by
  obtain ⟨first, _, resolved⟩ := given
  exact messages_ne_nil resolved

/-- Up to the first failure of an attribute both modes do the same. -/
theorem Meeting.settle_stopping {meetings : List Meeting} {all : List Value}
    (full : settle overrides false [] meetings = (all, .finished)) :
    (all = [] ∧ settle overrides true [] meetings = ([], .finished)) ∨
      ∃ messages, FirstMessages overrides meetings messages ∧ messages <+: all ∧
        settle overrides true [] meetings = (messages, .stopped) := by
  induction meetings with
  | nil => exact .inl ⟨(Prod.mk.inj full).1.symm, rfl⟩
  | cons m rest ih =>
      cases m.course overrides ([] : List Value).length with
      | bypass bypassed =>
          rw [settle_bypass bypassed] at full
          exact .inl ⟨(Prod.mk.inj full).1.symm, settle_bypass bypassed rest⟩
      | fault applies fault faulted => simp [settle_fault applies faulted] at full
      | unresolved applies failed fault faulted =>
          simp [settle_unresolved applies failed faulted] at full
      | pass applies passed =>
          have unfailed : ¬m.fails = true := by simp [fails, passed]
          rw [settle_pass (fun _ => rfl) applies passed] at full ⊢
          simp only [FirstMessages, effective_cons applies, List.find?_cons_of_neg unfailed]
          exact ih full
      | fail applies failed found given =>
          rw [settle_fail applies failed given] at full
          obtain ⟨collected, _⟩ := settle_calm (by simp) full fun fault => by simp
          refine .inr ⟨found, ⟨m, ?_, given⟩, collect_extends collected, ?_⟩
          · rw [effective_cons applies, List.find?_cons_of_pos (fails_iff.mpr failed)]
          · rw [settle_fail applies failed given]
            rfl

/-- A run in stop mode is settled by the first attribute of the full run that has errors. -/
theorem Agenda.settle_stopping {agenda : Agenda}
    (full : ∀ row ∈ agenda, Finishes overrides row) :
    (agenda.flatMap (entryOf overrides) = [] ∧ agenda.settle overrides true = ([], .finished)) ∨
      ∃ name meetings messages more later, (name, meetings) ∈ agenda ∧
        Meeting.FirstMessages overrides meetings messages ∧
        agenda.flatMap (entryOf overrides) = (name, messages ++ more) :: later ∧
        agenda.settle overrides true = ([(name, messages)], .stopped) := by
  induction agenda with
  | nil => exact .inl ⟨rfl, rfl⟩
  | cons row rest ih =>
      obtain ⟨name, meetings⟩ := row
      obtain ⟨rowFinishes, restFinish⟩ := List.forall_mem_cons.mp full
      have rowFull : Meeting.settle overrides false [] meetings =
          ((Meeting.settle overrides false [] meetings).1, .finished) := Prod.ext rfl rowFinishes
      rw [List.flatMap_cons]
      rcases Meeting.settle_stopping rowFull with ⟨none, quiet⟩ | ⟨messages, first, begins, stopped⟩
      · have noEntry : entryOf overrides (name, meetings) = [] := by
          simp [entryOf, none, Run.record]
        have goesOn : settle overrides true ((name, meetings) :: rest) =
            settle overrides true rest := by
          simp [settle, quiet, Run.record]
        rw [noEntry, List.nil_append, goesOn]
        rcases ih restFinish with quietRest |
          ⟨other, others, messages, more, later, member, first, entries, stopped⟩
        · exact .inl quietRest
        · exact .inr ⟨other, others, messages, more, later, List.mem_cons_of_mem _ member, first,
            entries, stopped⟩
      · obtain ⟨more, all⟩ := begins
        have filled := first.ne_nil
        refine .inr ⟨name, meetings, messages, more, rest.flatMap (entryOf overrides),
          List.mem_cons_self, first, ?_, ?_⟩
        · simp [entryOf, ← all, Run.record, Keyed.put, filled]
        · simp [settle, stopped, Run.record, Keyed.put, filled]

/-- A run in stop mode is the beginning of the full run. If the full run returns, so does the run
    in stop mode, in whatever workspace keeps the one of the full run, and with the same verdict.
    It has no errors if that is positive, and else those of the first failure of the first
    attribute that the full run has errors of. -/
theorem run_stopping (input : RunInput) {table : RuleTable} {w w' : Workspace}
    (sound : table.Sound w) (kept : w.KeptIn w') {errors : Errors} {valid : Bool}
    (full : (run { input with stops := false } table w).1 = ⟨errors, .ok valid⟩) :
    ∃ stopped, (run { input with stops := true } table w').1 = ⟨stopped, .ok valid⟩ ∧
      (valid = true → stopped = []) ∧
      (valid = false → ∃ name entries messages more later, (name, entries) ∈ table ∧
        errors = (name, messages ++ more) :: later ∧ stopped = [(name, messages)] ∧
        messages ≠ [] ∧
        Meeting.FirstMessages input.overrides (RuleTable.meetings w input.data name entries)
          messages) := by
  have answered : (table.agenda w input.data).answer input.overrides false = ⟨errors, .ok valid⟩ :=
    (run_eq_answer { input with stops := false } sound (.refl w)).symm.trans full
  rw [run_eq_answer _ sound kept]
  obtain ⟨finishes, rfl, rfl⟩ := Agenda.answer_full.mp answered
  rcases Agenda.settle_stopping finishes with ⟨none, quiet⟩ |
    ⟨_, _, messages, more, later, member, first, entries, stopped⟩
  · refine ⟨[], ?_, fun _ => rfl, ?_⟩
    · simp only [Agenda.answer, quiet, none]
    · simp [none]
  · obtain ⟨⟨name, tableEntries⟩, tableMember, row⟩ := List.mem_map.mp member
    obtain ⟨rfl, rfl⟩ := Prod.mk.inj row
    refine ⟨[(name, messages)], ?_, ?_, fun _ => ?_⟩
    · simp [Agenda.answer, stopped, entries]
    · simp [entries]
    · exact ⟨name, tableEntries, messages, more, later, tableMember, entries, rfl, first.ne_nil,
        first⟩

theorem run_stopping_sample :
    let later := (run Sample.input Sample.table Sample.workspace).2
    ∃ name messages, (run { Sample.input with stops := true } Sample.table later).1 =
        ⟨[(name, messages)], .ok false⟩ ∧
      ∃ more others, Sample.errors = (name, messages ++ more) :: others := by
  intro later
  have kept : Sample.workspace.KeptIn later := run_kept Sample.input Sample.table_sound (.refl _)
  obtain ⟨_, returned, _, failed⟩ :=
    run_stopping Sample.input Sample.table_sound kept Sample.run_errors
  obtain ⟨name, _, messages, more, others, _, errors, rfl, _⟩ := failed rfl
  exact ⟨name, messages, returned, more, others, errors⟩

end FieldRules
