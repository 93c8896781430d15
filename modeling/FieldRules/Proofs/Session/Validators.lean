import FieldRules.Proofs.Session.Records
import FieldRules.Proofs.Validation.Encounters

/-! # What validators are made as

All that a validator is made as, beside what it is given as it is, can be said before it is made:
whether it stops at the first failure, and what the entries of its table stand for. This is its plan.
The plan follows from the settings and from the rules as they are written, and two validators with
one plan come to the same, whatever rules were made for their tables.
-/

namespace FieldRules

/-- What a validator is made as. -/
structure ValidatorPlan where
  stops : Bool
  encounters : Keyed (List Encounter)

namespace ValidatorPlan

/-- The rules that the values of data meet by the plan. -/
def agenda (plan : ValidatorPlan) (data : Keyed Value) : Agenda :=
  .ofEncounters data plan.encounters

/-- What a run by the plan comes to. -/
def answer (plan : ValidatorPlan) (data overrides : Keyed Value) : RunResult :=
  (plan.agenda data).answer overrides plan.stops

/-- The values that pass by the plan. -/
def passed (plan : ValidatorPlan) (data : Keyed Value) (errors : Errors) : Keyed Value :=
  plan.encounters.names.filterMap fun name =>
    if errors.has name then none else (data.get? name).map fun value => (name, value)

/-- The result of a run by the plan. -/
def result (plan : ValidatorPlan) (data overrides : Keyed Value) : Outcome ValidationResult :=
  let answer := plan.answer data overrides
  answer.verdict.map fun valid =>
    { valid, data := plan.passed data answer.errors, errors := answer.errors }

end ValidatorPlan

/-- The plan that a validator follows in a workspace. -/
def Validator.plan (v : Validator) (w : Workspace) : ValidatorPlan := ⟨v.stops, v.table.encounters w⟩

theorem Validator.answer_plan {w : Workspace} {v : Validator} (sound : v.table.Sound w) :
    v.answer w = (v.plan w).answer v.data v.overrides :=
  RuleTable.run_encounters ⟨v.data, v.overrides, v.stops⟩ sound

theorem Validator.passed_plan (v : Validator) (w : Workspace) (errors : Errors) :
    passedData v.data v.table errors = (v.plan w).passed v.data errors := by
  rw [passedData_names, ValidatorPlan.passed, ← RuleTable.encounters_names w v.table]
  rfl

namespace Session

variable {s s' : Session} {registry : Nat}

/-- The plan that a validator of a session follows. -/
def planOf (s : Session) (id : Nat) : ValidatorPlan :=
  (s.validators.item id).plan (s.workspace (s.validators.item id).registry)

theorem result_plan (sound : s.Sound) (id : Nat) :
    (result id s).1 =
      (s.planOf id).result (s.validators.item id).data (s.validators.item id).overrides := by
  rw [result_eq rfl, Validator.answer_plan (sound id), Validator.passed_plan]
  rfl

/-- A validator comes to the same in two sessions where it follows the same plan. -/
theorem SameOutcome.ofPlan {id : Nat} (sound : s.Sound) (sound' : s'.Sound)
    (plan : s'.planOf id = s.planOf id)
    (data : (s'.validators.item id).data = (s.validators.item id).data)
    (overrides : (s'.validators.item id).overrides = (s.validators.item id).overrides) :
    SameOutcome id s s' := by
  have answer : (s'.validators.item id).answer (s'.workspace (s'.validators.item id).registry) =
      (s.validators.item id).answer (s.workspace (s.validators.item id).registry) := by
    rw [Validator.answer_plan (sound' id), Validator.answer_plan (sound id), data, overrides]
    exact congrArg (ValidatorPlan.answer · _ _) plan
  refine .ofAnswer answer data ?_
  have names := congrArg (fun plan => plan.encounters.names) plan
  exact (RuleTable.encounters_names _ _).symm.trans (names.trans (RuleTable.encounters_names _ _))

/-- A validator follows its plan as long as a session is kept. -/
theorem KeptIn.planOf (kept : s.KeptIn s') (sound : s.Sound) (id : Nat) :
    s'.planOf id = s.planOf id := by
  have same := Validator.eq_of_bare (kept.bare id)
  have encounters := RuleTable.encounters_kept (kept.workspace (s.validators.item id).registry)
    (sound id).used
  rw [Session.planOf, same]
  exact congrArg (ValidatorPlan.mk _) encounters

/-- A session goes on from another one: what validators rely on holds, all that a registry names
    exists, and every rule string is read by it as before. -/
structure GoesOn (registry : Nat) (s s' : Session) : Prop where
  continued : (s.workspace registry).ContinuedIn (s'.workspace registry)
  closed : (s'.workspace registry).Closed
  sound : s'.Sound

theorem GoesOn.trans {s'' : Session} (first : GoesOn registry s s')
    (second : GoesOn registry s' s'') : GoesOn registry s s'' :=
  ⟨first.continued.trans second.continued, second.closed, second.sound⟩

theorem absorb_workspace (s : Session) (registry : Nat) (w : Workspace) :
    (s.absorb registry w).workspace registry = { w with events := [] } := by
  simp [absorb, workspace]

theorem GoesOn.absorbing (sound : s.Sound) {w : Workspace}
    (continued : (s.workspace registry).ContinuedIn w) (closed : w.Closed) :
    GoesOn registry s (s.absorb registry w) := by
  refine ⟨?_, ?_, ((KeptIn.refl s).absorbing continued.kept).sound sound⟩
  · rw [absorb_workspace]
    exact ⟨continued.kept.noting _ _, continued.reading⟩
  · rw [absorb_workspace]
    exact ⟨closed.entries, closed.cache⟩

/-! ## Making validators -/

/-- Makes a validator, in a mode of its own if one is given. -/
def makeValidator (registry : Nat) (data : Keyed Value) (sheet : RuleSheet)
    (overrides : Keyed Value) (stops : Option Bool) : Action Nat := do
  let id ← newValidator registry data sheet overrides
  match stops with
  | some stops => changeValidator id fun v => { v with stops }
  | none => pure ()
  return id

theorem validateOnce_eq (data : Keyed Value) (sheet : RuleSheet) (overrides : Keyed Value)
    (stops : Option Bool) (s : Session) :
    validateOnce data sheet overrides stops s =
      (makeValidator mainId data sheet overrides stops >>= result) s := by
  simp only [validateOnce, makeValidator, Task.bind_eq]
  rcases newValidator mainId data sheet overrides s with ⟨fault | id, s'⟩
  · rfl
  · cases stops <;> rfl

theorem newValidator_eq (registry : Nat) (data : Keyed Value) (sheet : RuleSheet)
    (overrides : Keyed Value) (s : Session) :
    newValidator registry data sheet overrides s =
      match Settings.truth stopSetting (.bool false) (s.settings.item mainId) with
      | (.error fault, settings) =>
        (.error fault, { s with settings := s.settings.set mainId settings })
      | (.ok stops, settings) =>
        let asked := { s with settings := s.settings.set mainId settings }
        match RuleTable.ofSheet sheet (s.workspace registry) with
        | (.error fault, w) => (.error fault, asked.absorb registry w)
        | (.ok table, w) =>
          (.ok s.validators.next, { asked.absorb registry w with
            validators := (s.validators.add { registry, data, overrides, stops, table }).2 }) := by
  simp only [newValidator, tableOf, inSettings, inRegistry, Task.bind_eq]
  rcases Settings.truth stopSetting (.bool false) (s.settings.item mainId)
    with ⟨fault | default, settings⟩
  · rfl
  · have same : Session.workspace { s with settings := s.settings.set mainId settings } registry =
        s.workspace registry := rfl
    simp only [same]
    rcases RuleTable.ofSheet sheet (s.workspace registry) with ⟨fault | table, w⟩ <;> rfl

/-- The plan of rules as they are written. -/
def planFor (s : Session) (registry : Nat) (rows : Keyed Written) (stops : Option Bool) :
    Outcome ValidatorPlan := do
  let default ← (Settings.truth stopSetting (.bool false) (s.settings.item mainId)).1
  let encounters ← RuleTable.rowEncounters (s.workspace registry) rows
  return ⟨stops.getD default, encounters⟩

theorem planFor_ok {rows : Keyed Written} {stops : Option Bool} {plan : ValidatorPlan} :
    s.planFor registry rows stops = .ok plan ↔
      ∃ default, (Settings.truth stopSetting (.bool false) (s.settings.item mainId)).1 =
          .ok default ∧
        RuleTable.rowEncounters (s.workspace registry) rows = .ok plan.encounters ∧
        plan.stops = stops.getD default := by
  obtain ⟨planStops, encounters⟩ := plan
  constructor
  · intro given
    obtain ⟨default, asked, given⟩ := Outcome.bind_ok given
    obtain ⟨found, rowsGiven, given⟩ := Outcome.bind_ok given
    obtain ⟨rfl, rfl⟩ := ValidatorPlan.mk.inj (Except.ok.inj given)
    exact ⟨default, asked, rowsGiven, rfl⟩
  · rintro ⟨default, asked, rowsGiven, rfl⟩
    simp only [planFor, asked, rowsGiven]
    rfl

/-- What it is to have made a validator by a plan. -/
structure Planned (s : Session) (registry : Nat) (data overrides : Keyed Value)
    (plan : ValidatorPlan) (run : Outcome Nat × Session) : Prop where
  outcome : run.1 = .ok s.validators.next
  registry : (run.2.validators.item s.validators.next).registry = registry
  plan : run.2.planOf s.validators.next = plan
  data : (run.2.validators.item s.validators.next).data = data
  overrides : (run.2.validators.item s.validators.next).overrides = overrides
  sound : run.2.Sound

theorem Sound.stopping (sound : s.Sound) (id : Nat) (stops : Bool) :
    (changeValidator id (fun v => { v with stops }) s).2.Sound := by
  intro other
  have own := sound other
  simp only [changeValidator, Task.modify_eq, Shelf.modify, Shelf.item_set]
  split
  · subst_vars
    exact own
  · exact own

/-- A change of the mode changes nothing else of a plan. -/
theorem Planned.stopping {data overrides : Keyed Value} {plan : ValidatorPlan}
    (planned : Planned s registry data overrides plan (.ok s.validators.next, s')) (stops : Bool) :
    Planned s registry data overrides { plan with stops } (.ok s.validators.next,
      (changeValidator s.validators.next (fun v => { v with stops }) s').2) := by
  obtain ⟨_, rfl, rfl, rfl, rfl, sound⟩ := planned
  refine ⟨rfl, ?_, ?_, ?_, ?_, sound.stopping _ stops⟩
  · simp [changeValidator, Task.modify_eq, Shelf.modify]
  · simp [planOf, Validator.plan, changeValidator, Task.modify_eq, Shelf.modify]
    rfl
  · simp [changeValidator, Task.modify_eq, Shelf.modify]
  · simp [changeValidator, Task.modify_eq, Shelf.modify]

/-- A validator is made just if there is a plan of its rules, and then by that plan. -/
theorem makeValidator_planned (sound : s.Sound) (closed : (s.workspace registry).Closed)
    {sheet : RuleSheet} {rows : Keyed Written} (listed : sheet.entries = .ok rows)
    (distinct : rows.names.Nodup) (used : ∀ row ∈ rows, row.2.InUse s.rules)
    (data overrides : Keyed Value) (stops : Option Bool) :
    match s.planFor registry rows stops with
    | .error fault => (makeValidator registry data sheet overrides stops s).1 = .error fault
    | .ok plan =>
      Planned s registry data overrides plan (makeValidator registry data sheet overrides stops s) := by
  have newSound := newValidator_sound sound closed listed distinct used data overrides
  have encounters := (RuleTable.ofEntries_encounters closed (.refl _) closed used).2
  rw [← RuleTable.ofSheet_listed listed] at encounters
  rw [newValidator_eq] at newSound
  simp only [makeValidator, planFor, Task.bind_eq, newValidator_eq, ← encounters]
  rcases asked : Settings.truth stopSetting (.bool false) (s.settings.item mainId)
    with ⟨fault | default, settings⟩
  · rfl
  · rcases made : RuleTable.ofSheet sheet (s.workspace registry) with ⟨fault | table, w⟩
    · rfl
    · rw [asked, made] at newSound
      have planned : Planned s registry data overrides ⟨default, table.encounters w⟩
          (.ok s.validators.next, { absorb { s with settings := s.settings.set mainId settings }
              registry w with
            validators := (s.validators.add
              { registry, data, overrides, stops := default, table }).2 }) := by
        refine ⟨rfl, by simp, ?_, by simp, by simp, newSound⟩
        have stands : table.encounters ((absorb { s with
            settings := s.settings.set mainId settings } registry w).workspace registry) =
              table.encounters w := by
          rw [absorb_workspace]
          rfl
        simp only [planOf, Shelf.item_add, if_true, Validator.plan]
        exact congrArg (ValidatorPlan.mk default) stands
      -- A mode that is asked for is set once the validator is made with the default.
      cases stops with
      | none => exact planned
      | some stops => exact planned.stopping stops

/-- Validators that are made by one plan come to the same whenever they are used on the same data. -/
theorem Planned.sameOutcome {data overrides : Keyed Value} {plan : ValidatorPlan}
    {run run' : Outcome Nat × Session} (planned : Planned s registry data overrides plan run)
    (planned' : Planned s' registry data overrides plan run') (next : s'.validators.next = s.validators.next)
    {uses uses' : List Use}
    (same : dataAfter s.validators.next uses' data = dataAfter s.validators.next uses data) :
    SameOutcome s.validators.next (after uses run.2) (after uses' run'.2) := by
  have kept := after_kept planned.sound (.refl _) uses
  have kept' := after_kept planned'.sound (.refl _) uses'
  have bare := Validator.eq_of_bare (kept.bare s.validators.next)
  have bare' := Validator.eq_of_bare (kept'.bare s.validators.next)
  obtain ⟨_, _, own, ownData, ownOverrides, sound⟩ := planned
  obtain ⟨_, _, own', ownData', ownOverrides', sound'⟩ := planned'
  rw [next] at own' ownData' ownOverrides'
  refine .ofPlan (kept.sound sound) (kept'.sound sound') ?_ ?_ ?_
  · rw [kept.planOf sound, kept'.planOf sound', own, own']
  · rw [after_data, after_data, ownData, ownData', same]
  · rw [bare, bare', ownOverrides, ownOverrides']

/-! ## Validating once -/

theorem newValidator_workspace (registry : Nat) (data : Keyed Value) (sheet : RuleSheet)
    (overrides : Keyed Value) (s : Session) :
    (newValidator registry data sheet overrides s).2.workspace registry = s.workspace registry ∨
      (newValidator registry data sheet overrides s).2.workspace registry =
        { (RuleTable.ofSheet sheet (s.workspace registry)).2 with events := [] } := by
  rw [newValidator_eq]
  rcases Settings.truth stopSetting (.bool false) (s.settings.item mainId)
    with ⟨fault | default, settings⟩
  · exact .inl rfl
  · refine .inr ?_
    have absorbed := absorb_workspace { s with settings := s.settings.set mainId settings } registry
    rcases RuleTable.ofSheet sheet (s.workspace registry) with ⟨fault | table, w⟩
    · exact absorbed w
    · exact absorbed w

/-- Making a validator, a session goes on. -/
theorem makeValidator_goesOn (sound : s.Sound) (closed : (s.workspace registry).Closed)
    {sheet : RuleSheet} {rows : Keyed Written} (listed : sheet.entries = .ok rows)
    (distinct : rows.names.Nodup) (used : ∀ row ∈ rows, row.2.InUse s.rules)
    (data overrides : Keyed Value) (stops : Option Bool) :
    GoesOn registry s (makeValidator registry data sheet overrides stops s).2 := by
  have newSound := newValidator_sound sound closed listed distinct used data overrides
  have continued := (RuleTable.ofEntries_encounters closed (.refl _) closed used).1
  have tableClosed := (RuleTable.ofEntries_keeps closed used).closed
  rw [← RuleTable.ofSheet_listed listed] at continued tableClosed
  have goes : GoesOn registry s (newValidator registry data sheet overrides s).2 := by
    rcases newValidator_workspace registry data sheet overrides s with same | same
    · exact ⟨same ▸ .refl _, same ▸ closed, newSound⟩
    · refine ⟨?_, ?_, newSound⟩ <;> rw [same]
      · exact ⟨continued.kept.noting _ _, continued.reading⟩
      · exact ⟨tableClosed.entries, tableClosed.cache⟩
  simp only [makeValidator, Task.bind_eq]
  rcases ran : newValidator registry data sheet overrides s with ⟨fault | id, s'⟩ <;>
    rw [ran] at goes
  · exact goes
  · cases stops with
    | none => exact goes
    | some stops => exact ⟨goes.continued, goes.closed, goes.sound.stopping id stops⟩

theorem runValidator_goesOn (sound : s.Sound) {id : Nat}
    (closed : (s.workspace (s.validators.item id).registry).Closed) :
    GoesOn (s.validators.item id).registry s (runValidator id s).2 := by
  have run := run_continued
    ⟨(s.validators.item id).data, (s.validators.item id).overrides, (s.validators.item id).stops⟩
    (sound id) closed
  have absorbed := GoesOn.absorbing sound run.1 run.2
  exact ⟨absorbed.continued, absorbed.closed, ((KeptIn.refl s).running sound id).sound sound⟩

/-- A plan is the same as long as a session goes on and the settings give the same. -/
theorem GoesOn.planFor (closed : (s.workspace registry).Closed) (goes : GoesOn registry s s')
    (settings : (Settings.truth stopSetting (.bool false) (s'.settings.item mainId)).1 =
      (Settings.truth stopSetting (.bool false) (s.settings.item mainId)).1)
    {rows : Keyed Written} (used : ∀ row ∈ rows, row.2.InUse s.rules) (stops : Option Bool) :
    s'.planFor registry rows stops = s.planFor registry rows stops := by
  have encounters := RuleTable.rowEncounters_continued closed goes.continued goes.closed used
  simp only [Session.planFor, settings, encounters]

theorem newValidator_settings (registry : Nat) (data : Keyed Value) (sheet : RuleSheet)
    (overrides : Keyed Value) (s : Session) :
    (newValidator registry data sheet overrides s).2.settings = s.settings.set mainId
      (Settings.truth stopSetting (.bool false) (s.settings.item mainId)).2 := by
  rw [newValidator_eq]
  rcases Settings.truth stopSetting (.bool false) (s.settings.item mainId)
    with ⟨fault | default, settings⟩
  · rfl
  · rcases RuleTable.ofSheet sheet (s.workspace registry) with ⟨fault | table, w⟩ <;> rfl

theorem validateOnce_settings (data : Keyed Value) (sheet : RuleSheet) (overrides : Keyed Value)
    (stops : Option Bool) (s : Session) :
    (validateOnce data sheet overrides stops s).2.settings = s.settings.set mainId
      (Settings.truth stopSetting (.bool false) (s.settings.item mainId)).2 := by
  have made := newValidator_settings mainId data sheet overrides s
  have ran (id : Nat) (s : Session) : (result id s).2.settings = s.settings := by
    rw [result_session]
    rfl
  simp only [validateOnce, Task.bind_eq]
  rcases new : newValidator mainId data sheet overrides s with ⟨fault | id, s'⟩ <;> rw [new] at made
  · exact made
  · cases stops with
    | none => exact (ran id s').trans made
    | some stops => exact (ran id _).trans made

/-- What validating once comes to follows from the plan, and behind it a session goes on. -/
theorem validateOnce_planned (sound : s.Sound) (closed : (s.workspace mainId).Closed)
    {sheet : RuleSheet} {rows : Keyed Written} (listed : sheet.entries = .ok rows)
    (distinct : rows.names.Nodup) (used : ∀ row ∈ rows, row.2.InUse s.rules)
    (data overrides : Keyed Value) (stops : Option Bool) :
    (validateOnce data sheet overrides stops s).1 =
        (s.planFor mainId rows stops).bind (fun plan => plan.result data overrides) ∧
      GoesOn mainId s (validateOnce data sheet overrides stops s).2 := by
  have planned := makeValidator_planned sound closed listed distinct used data overrides stops
  have goes := makeValidator_goesOn sound closed listed distinct used data overrides stops
  rw [validateOnce_eq, Task.bind_eq]
  cases given : s.planFor mainId rows stops with
  | error fault =>
      rw [given] at planned
      simp only at planned
      rcases made : makeValidator mainId data sheet overrides stops s with ⟨outcome, s'⟩
      rw [made] at planned goes
      simp only at planned
      subst planned
      exact ⟨rfl, goes⟩
  | ok plan =>
      rw [given] at planned
      rcases made : makeValidator mainId data sheet overrides stops s with ⟨outcome, s'⟩
      rw [made] at planned goes
      obtain ⟨rfl, registry, follows, ownData, ownOverrides, sound'⟩ := planned
      have own := result_plan sound' s.validators.next
      have ran := runValidator_goesOn sound' (by rw [registry]; exact goes.closed)
      rw [follows, ownData, ownOverrides] at own
      rw [registry, ← result_session] at ran
      exact ⟨own, goes.trans ran⟩

end Session

end FieldRules
