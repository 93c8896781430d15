import FieldRules.Proofs.Validation.Account

/-! # Full runs

A full run visits every rule that applies. Its attributes have nothing to do with each other: it
returns if each of them comes to its end, and its errors are those of its attributes one after the
other.
-/

namespace FieldRules

variable {overrides : Keyed Value}

namespace Agenda

/-- What a full run records of an attribute. -/
def entryOf (overrides : Keyed Value) (row : String × List Meeting) : Errors :=
  Run.record [] row.1 (Meeting.settle overrides false [] row.2).1

/-- Whether the meetings of an attribute come to their end without a fault. -/
def Finishes (overrides : Keyed Value) (row : String × List Meeting) : Prop :=
  (Meeting.settle overrides false [] row.2).2 = .finished

/-- A full run comes to its end just if each attribute does, and records what each records. -/
theorem settle_full {agenda : Agenda} {errors : Errors} :
    agenda.settle overrides false = (errors, .finished) ↔
      (∀ row ∈ agenda, Finishes overrides row) ∧ errors = agenda.flatMap (entryOf overrides) := by
  induction agenda generalizing errors with
  | nil => simp [settle, eq_comm]
  | cons row rest ih =>
      obtain ⟨name, meetings⟩ := row
      rw [List.forall_mem_cons, List.flatMap_cons]
      rcases checked : Meeting.settle overrides false [] meetings with ⟨found, ending⟩
      simp only [settle, Finishes, entryOf, checked]
      cases ending with
      | stopped => simp
      | faulted fault => simp
      | finished =>
          rw [Prod.mk.injEq]
          constructor
          · rintro ⟨rfl, finished⟩
            obtain ⟨all, same⟩ := ih.mp (Prod.ext rfl finished)
            exact ⟨⟨rfl, all⟩, congrArg (Run.record [] name found ++ ·) same⟩
          · rintro ⟨⟨_, all⟩, rfl⟩
            obtain ⟨same, finished⟩ := Prod.mk.inj (ih.mpr ⟨all, rfl⟩)
            exact ⟨congrArg (Run.record [] name found ++ ·) same, finished⟩

/-- Nothing stops a full run. -/
theorem settle_full_ending (agenda : Agenda) : (agenda.settle overrides false).2 ≠ .stopped := by
  induction agenda with
  | nil => simp [settle]
  | cons row rest ih =>
      obtain ⟨name, meetings⟩ := row
      rcases checked : Meeting.settle overrides false [] meetings with ⟨found, ending⟩
      simp only [settle, checked]
      cases ending with
      | finished => exact ih
      | faulted fault => simp
      | stopped =>
          obtain ⟨stop, _⟩ := Meeting.settle_stopped (fun _ => rfl) checked
          simp at stop

/-- A full run returns just if all attributes come to their end, and it is valid just if none of
    them has errors. -/
theorem answer_full {agenda : Agenda} {errors : Errors} {valid : Bool} :
    agenda.answer overrides false = ⟨errors, .ok valid⟩ ↔
      (∀ row ∈ agenda, Finishes overrides row) ∧ errors = agenda.flatMap (entryOf overrides) ∧
        valid = errors.isEmpty := by
  rw [← and_assoc, ← settle_full]
  have unstopped := @settle_full_ending overrides agenda
  rcases settled : agenda.settle overrides false with ⟨recorded, ending⟩
  rw [settled] at unstopped
  simp only [answer, settled]
  cases ending with
  | stopped => exact absurd rfl unstopped
  | faulted fault => simp
  | finished =>
      simp only [RunResult.mk.injEq, Except.ok.injEq, Prod.mk.injEq, and_true]
      constructor
      · rintro ⟨rfl, rfl⟩
        exact ⟨rfl, rfl⟩
      · rintro ⟨rfl, rfl⟩
        exact ⟨rfl, rfl⟩

end Agenda

end FieldRules
