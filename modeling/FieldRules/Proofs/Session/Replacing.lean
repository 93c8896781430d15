import FieldRules.Proofs.Session.Validators
import FieldRules.Proofs.Validation.Sheets

/-! # Replacing the rules of a validator

The rules of a validator are replaced by a table that is made from a sheet, or not at all. A sheet
that is refused leaves every validator as it was. Rule strings may have been read by then, and rules
made that nobody holds, but none of this shows in what a validator comes to afterwards.
-/

namespace FieldRules

namespace Session

variable {base s s' : Session} {id : Nat} {sheet : RuleSheet}

/-- A validator takes over a table just if it can be made. -/
theorem setRules_eq (id : Nat) (sheet : RuleSheet) (s : Session) :
    setRules id sheet s =
      match RuleTable.ofSheet sheet (s.workspace (s.validators.item id).registry) with
      | (.ok table, w) => (.ok (), { s.absorb (s.validators.item id).registry w with
          validators := s.validators.set id { s.validators.item id with table } })
      | (.error fault, w) => (.error fault, s.absorb (s.validators.item id).registry w) := by
  simp only [setRules, validatorOf, tableOf, inRegistry, Task.bind_eq, Task.get_eq, Task.pure_eq,
    changeValidator, Task.modify_eq]
  rcases RuleTable.ofSheet sheet (s.workspace (s.validators.item id).registry)
    with ⟨fault | table, w⟩ <;> rfl

/-- A sheet that is refused leaves all validators alone, and adds at most to the rest. -/
theorem setRules_refused {fault : Fault}
    (refused : (RuleTable.ofSheet sheet (s.workspace (s.validators.item id).registry)).1 =
      .error fault) :
    (setRules id sheet s).1 = .error fault ∧
      (setRules id sheet s).2.validators = s.validators ∧ s.KeptIn (setRules id sheet s).2 := by
  have grown := RuleTable.ofSheet_grown sheet (s.workspace (s.validators.item id).registry)
  rw [setRules_eq]
  rcases made : RuleTable.ofSheet sheet (s.workspace (s.validators.item id).registry)
    with ⟨other | table, w⟩
  · rw [made] at grown refused
    cases refused
    exact ⟨rfl, rfl, (KeptIn.refl s).absorbing grown.kept⟩
  · rw [made] at refused
    cases refused

theorem setRules_accepted {table : RuleTable}
    (given : (RuleTable.ofSheet sheet (s.workspace (s.validators.item id).registry)).1 =
      .ok table) :
    (setRules id sheet s).1 = .ok () ∧ (setRules id sheet s).2.validators =
      s.validators.set id { s.validators.item id with table } := by
  rw [setRules_eq]
  rcases made : RuleTable.ofSheet sheet (s.workspace (s.validators.item id).registry)
    with ⟨fault | own, w⟩
  · rw [made] at given
    cases given
  · rw [made] at given
    cases given
    exact ⟨rfl, rfl⟩

/-! ## What follows -/

/-- What may be done with validators from then on. -/
inductive Turn where
  | ofUse (use : Use)
  | setStops (id : Nat) (stops : Bool)

/-- The session after a turn, faulted or not. -/
def Turn.perform : Turn → Session → Session
  | .ofUse use, session => use.perform session
  | .setStops id stops, session => (changeValidator id (fun v => { v with stops }) session).2

/-- Two sessions that come from a sound one by what does not show, with the same data. -/
def Alike (s s' : Session) : Prop :=
  ∃ base : Session, base.Sound ∧ base.KeptIn s ∧ base.KeptIn s' ∧
    ∀ id, (s.validators.item id).data = (s'.validators.item id).data

theorem KeptIn.stopping (kept : base.KeptIn s) (id : Nat) (stops : Bool) :
    (changeValidator id (fun v => { v with stops }) base).2.KeptIn
      (changeValidator id (fun v => { v with stops }) s).2 where
  workspace := kept.workspace
  bare other := by
    have same := Validator.eq_of_bare (kept.bare other)
    simp only [changeValidator, Task.modify_eq, Shelf.modify, Shelf.item_set]
    split
    · subst_vars
      rw [same]
      rfl
    · exact kept.bare other

namespace Alike

theorem sameOutcome (alike : Alike s s') (id : Nat) : SameOutcome id s s' := by
  obtain ⟨base, sound, kept, kept', data⟩ := alike
  exact kept.sameOutcome kept' sound (data id)

theorem turn (alike : Alike s s') (turn : Turn) : Alike (turn.perform s) (turn.perform s') := by
  obtain ⟨base, sound, kept, kept', data⟩ := alike
  cases turn with
  | ofUse use =>
      refine ⟨base, sound, use.perform_kept sound kept, use.perform_kept sound kept', fun id => ?_⟩
      simp only [Turn.perform, Use.perform_data, data id]
  | setStops id stops =>
      refine ⟨_, sound.stopping id stops, kept.stopping id stops, kept'.stopping id stops,
        fun other => ?_⟩
      simp only [Turn.perform, changeValidator, Task.modify_eq, Shelf.modify, Shelf.item_set]
      split
      · exact data id
      · exact data other

theorem turns (alike : Alike s s') (turns : List Turn) :
    Alike (turns.foldl (fun session turn => turn.perform session) s)
      (turns.foldl (fun session turn => turn.perform session) s') := by
  induction turns generalizing s s' with
  | nil => exact alike
  | cons turn rest ih => exact ih (alike.turn turn)

end Alike

/-- The rules of a validator are replaced by exactly what a sheet says, or not at all.

    A sheet comes to a table just if it is a mapping and what is written for each attribute is
    accepted: a rule string that can be parsed, a rule, a function, or a list or a tuple of rules
    and functions. The table has the same attributes in the same order, with one entry for each
    token or element in order, bound to the rule of the token or to the very element. Otherwise the
    first attribute whose rules are not accepted is to blame, and of its elements the first; of a
    rule string the leftmost piece that cannot be read, and if all can be read, the leftmost token
    whose rule cannot be made. A fault leaves the rules and the errors of all validators as they
    were, and whatever is done with them and their data from then on, they come to the same as if
    the rules had not been set. -/
theorem setRules_exact {sheet : RuleSheet} (named : sheet.Named) :
    (∀ w : Workspace,
      let made := RuleTable.ofSheet sheet w
      ((∃ table, made.1 = .ok table) ↔
        ∃ rows, sheet.Lists rows ∧ ∀ row ∈ rows, row.2.Accepted w) ∧
      (∀ table, made.1 = .ok table → ∃ rows, sheet.Lists rows ∧
        List.Forall₂ (fun row given => given.1 = row.1 ∧ row.2.Becomes w made.2 given.2)
          rows table) ∧
      ∀ fault, made.1 = .error fault ↔ sheet.Refused w fault) ∧
    ∀ (s : Session) (id : Nat),
      let made := RuleTable.ofSheet sheet (s.workspace (s.validators.item id).registry)
      let replaced := setRules id sheet s
      (∀ table, made.1 = .ok table → replaced.1 = .ok () ∧
        replaced.2.validators = s.validators.set id { s.validators.item id with table }) ∧
      ∀ fault, made.1 = .error fault →
        replaced.1 = .error fault ∧ replaced.2.validators = s.validators ∧
        (s.Sound → ∀ (turns : List Turn) (other : Nat),
          SameOutcome other (turns.foldl (fun session turn => turn.perform session) replaced.2)
            (turns.foldl (fun session turn => turn.perform session) s)) := by
  refine ⟨fun w => ⟨RuleTable.ofSheet_accepted named, fun table given => ?_,
    fun fault => RuleTable.ofSheet_refused named⟩, fun s id => ⟨fun table given => ?_,
    fun fault refused => ?_⟩⟩
  · exact RuleTable.ofSheet_becomes named (Prod.ext given rfl)
  · exact setRules_accepted given
  · obtain ⟨faulted, validators, kept⟩ := setRules_refused refused
    refine ⟨faulted, validators, fun sound turns other => ?_⟩
    have alike : Alike (setRules id sheet s).2 s :=
      ⟨s, sound, kept, .refl s, fun id => by rw [validators]⟩
    exact (alike.turns turns).sameOutcome other

end Session

/-- A rule string that stands where only rules and functions may. -/
def Sample.misplaced : RuleSheet :=
  .rules [("code", .rule 1), ("nick", .list [.rule 1, .value (.str "email")])]

theorem Session.setRules_exact_sample :
    let replaced := setRules 0 Sample.misplaced Sample.shared
    replaced.1 = .error (.invalidRule (.notCallable "str")) ∧
      replaced.2.validators = Sample.shared.validators ∧
      SameOutcome 0 (changeData 0 (fun _ => Sample.corrected) replaced.2).2
        (changeData 0 (fun _ => Sample.corrected) Sample.shared).2 := by
  intro replaced
  obtain ⟨forms, replacing⟩ := @setRules_exact Sample.misplaced trivial
  have single : Written.Accepted (Sample.shared.workspace 0) (.rule 1) := .single rfl
  have listed : Sample.misplaced.Lists
      ([("code", .rule 1)] ++ ("nick", .list ([.rule 1] ++ .value (.str "email") :: [])) :: []) :=
    .rules _
  have offends : Written.Refused (Sample.shared.workspace 0)
      (.list ([.rule 1] ++ .value (.str "email") :: []))
      (.invalidRule (.notCallable (Written.typeName _ (.value (.str "email"))))) :=
    .element rfl (List.forall_mem_singleton.mpr ⟨_, rfl⟩) rfl
  have refused := RuleSheet.Refused.row listed (List.forall_mem_singleton.mpr single) offends
  have made := ((forms (Sample.shared.workspace 0)).2.2 _).mpr refused
  obtain ⟨faulted, validators, after⟩ := (replacing Sample.shared 0).2 _ made
  exact ⟨faulted, validators,
    after Sample.shared_sound [.ofUse (.changeData 0 fun _ => Sample.corrected)] 0⟩

/-- A rule string is read to its end before a rule is made: the rule of its first piece cannot be
    made, and yet the second decides what the fault is. -/
theorem RuleTable.ofSheet_reads_ahead :
    let faultOf (spec : String) :=
      (ofSheet (.rules [("a", .value (.str spec))]) { registry := .standard }).1
    faultOf "min" = .error (.buildFailed "min" [] (.call (.missing "Min.__init__" "minimum"))) ∧
      faultOf "min|nosuch" = .error (.unknownRule "nosuch") ∧
      faultOf "min|nosuch" ≠ faultOf "min" := by
  intro faultOf
  have first : faultOf "min" =
      .error (.buildFailed "min" [] (.call (.missing "Min.__init__" "minimum"))) := by rfl
  have both : faultOf "min|nosuch" = .error (.unknownRule "nosuch") := by rfl
  exact ⟨first, both, by simp [first, both]⟩

end FieldRules
