import FieldRules.Proofs.Validation.Passed

/-! # What checks record

Rules record the codes of their last check and validators the errors of their last run, and rules
may be held by several attributes, validators and registries at once. None of this shows in what a
run comes to: every check of a run begins with codes of its own, and every run with errors of its
own. So a run may be repeated, after any other checks and runs, and comes to the same; and one that
was aborted leaves nothing behind that could show once the data are put right.
-/

namespace FieldRules

/-- A validator without its data and the errors of its last run. -/
def Validator.bare (v : Validator) : Validator := { v with data := [], errors := [] }

theorem Validator.eq_of_bare {v v' : Validator} (same : v'.bare = v.bare) :
    v' = { v with data := v'.data, errors := v'.errors } := by
  cases v
  cases v'
  simp only [bare, mk.injEq] at same
  simpa using same

namespace Session

/-- What runs rely on, for each validator of a session. -/
def Sound (session : Session) : Prop :=
  ∀ id, (session.validators.item id).table.Sound
    (session.workspace (session.validators.item id).registry)

/-- A session in which the last checks and runs recorded something else. -/
def recording (session : Session) (codes : RuleId → List Value) (errors : Nat → Errors) :
    Session :=
  { session with
    rules := ⟨session.rules.next,
      fun id => { session.rules.item id with violations := codes id }⟩
    validators := ⟨session.validators.next,
      fun id => { session.validators.item id with errors := errors id }⟩ }

/-- Two sessions in which a validator comes to the same, also as a result. -/
structure SameOutcome (id : Nat) (s s' : Session) : Prop where
  verdict : (runValidator id s).1 = (runValidator id s').1
  errors : ((runValidator id s).2.validators.item id).errors =
    ((runValidator id s').2.validators.item id).errors
  result : (result id s).1 = (Session.result id s').1

/-! ## Sessions that keep what they had -/

/-- Nothing that `s` had is different in `s'`, but for what was recorded and the data of
    validators. -/
structure KeptIn (s s' : Session) : Prop where
  workspace (registry : Nat) : (s.workspace registry).KeptIn (s'.workspace registry)
  bare (id : Nat) : (s'.validators.item id).bare = (s.validators.item id).bare

namespace KeptIn

variable {s s' : Session}

theorem refl (s : Session) : KeptIn s s := ⟨fun _ => .refl _, fun _ => rfl⟩

theorem recording (kept : KeptIn s s') (codes : RuleId → List Value) (errors : Nat → Errors) :
    KeptIn s (s'.recording codes errors) where
  workspace registry :=
    ⟨(kept.workspace registry).entries, (kept.workspace registry).next,
      (kept.workspace registry).cleared⟩
  bare := kept.bare

theorem checking (kept : KeptIn s s') {id : RuleId} {checked : Rule}
    (same : checked.cleared = (s'.rules.item id).cleared) :
    KeptIn s { s' with rules := s'.rules.set id checked } where
  workspace registry := (kept.workspace registry).checking same
  bare := kept.bare

theorem changing (kept : KeptIn s s') {id : Nat} {v : Validator}
    (same : v.bare = (s'.validators.item id).bare) :
    KeptIn s { s' with validators := s'.validators.set id v } where
  workspace := kept.workspace
  bare other := by
    by_cases here : other = id
    · subst here
      simpa [same] using kept.bare other
    · simpa [here] using kept.bare other

theorem absorbing (kept : KeptIn s s') {registry : Nat} {w : Workspace}
    (worked : (s.workspace registry).KeptIn w) : KeptIn s (s'.absorb registry w) where
  workspace other := by
    refine ⟨?_, worked.next, worked.cleared⟩
    by_cases here : other = registry
    · subst here
      simpa [absorb, Session.workspace] using worked.entries
    · simpa [absorb, Session.workspace, here] using (kept.workspace other).entries
  bare := kept.bare

end KeptIn

/-! ## Runs -/

variable {s s' s'' : Session}

theorem runValidator_eq (id : Nat) (s : Session) :
    let v := s.validators.item id
    let answer := v.answer (s.workspace v.registry)
    (runValidator id s).1 = answer.verdict ∧
      (runValidator id s).2.validators = s.validators.set id { v with errors := answer.errors } :=
  ⟨rfl, rfl⟩

/-- A validator comes to the same if its runs come to the same, over the same attributes. -/
theorem SameOutcome.ofAnswer {id : Nat}
    (answer : (s'.validators.item id).answer (s'.workspace (s'.validators.item id).registry) =
      (s.validators.item id).answer (s.workspace (s.validators.item id).registry))
    (data : (s'.validators.item id).data = (s.validators.item id).data)
    (names : Keyed.names (s'.validators.item id).table =
      Keyed.names (s.validators.item id).table) : SameOutcome id s s' := by
  obtain ⟨verdict, validators⟩ := runValidator_eq id s
  obtain ⟨verdict', validators'⟩ := runValidator_eq id s'
  refine ⟨?_, ?_, ?_⟩
  · rw [verdict, verdict', answer]
  · rw [validators, validators']
    simp [answer]
  · rw [result_eq rfl, result_eq rfl, answer, passedData_names, passedData_names, data, names]

/-- A validator comes to what it comes to in a session that is kept. -/
theorem KeptIn.answer (kept : s.KeptIn s') (sound : s.Sound) (id : Nat) :
    let v := s.validators.item id
    let v' := s'.validators.item id
    v'.answer (s'.workspace v'.registry) =
      (v.table.agenda (s.workspace v.registry) v'.data).answer v.overrides v.stops := by
  intro v v'
  have same : v' = _ := Validator.eq_of_bare (kept.bare id)
  rw [same]
  exact run_eq_answer ⟨v'.data, v.overrides, v.stops⟩ (sound id) (kept.workspace v.registry)

theorem KeptIn.sound (kept : s.KeptIn s') (sound : s.Sound) : s'.Sound := by
  intro id
  rw [Validator.eq_of_bare (kept.bare id)]
  exact (kept.workspace _).sound (sound id)

theorem KeptIn.running (kept : s.KeptIn s') (sound : s.Sound) (id : Nat) :
    s.KeptIn (runValidator id s').2 := by
  have same := Validator.eq_of_bare (kept.bare id)
  have worked (input : RunInput) := run_kept input (sound id)
    (kept.workspace (s.validators.item id).registry)
  simp only [runValidator]
  rw [same]
  exact (kept.absorbing (worked _)).changing (kept.bare id).symm

/-- Whatever was recorded, a validator comes to the same on the same data. -/
theorem KeptIn.sameOutcome (kept' : s.KeptIn s') (kept'' : s.KeptIn s'') (sound : s.Sound)
    {id : Nat} (sameData : (s'.validators.item id).data = (s''.validators.item id).data) :
    SameOutcome id s' s'' := by
  have answer' := kept'.answer sound id
  have answer'' := kept''.answer sound id
  simp only [← sameData] at answer''
  refine .ofAnswer (answer''.trans answer'.symm) sameData.symm ?_
  rw [Validator.eq_of_bare (kept'.bare id), Validator.eq_of_bare (kept''.bare id)]

/-- A session without validators is sound if its first registry shares rules that exist. -/
theorem sound_of_none (none : s.validators = .empty) (closed : (s.workspace mainId).Closed) :
    s.Sound := by
  intro id
  rw [none]
  exact ⟨List.nodup_nil, fun _ member => absurd member List.not_mem_nil, closed.registered⟩

theorem Sound.adding (sound : s.Sound) {v : Validator}
    (own : v.table.Sound (s.workspace v.registry)) :
    Sound { s with validators := (s.validators.add v).2 } := by
  intro id
  by_cases here : id = s.validators.next
  · have new : (s.validators.add v).2.item id = v := by simp [here]
    simp only [new]
    exact own
  · have old : (s.validators.add v).2.item id = s.validators.item id := by simp [here]
    simp only [old]
    exact sound id

/-- What runs rely on holds of every validator that is made. -/
theorem newValidator_sound (sound : s.Sound) {registry : Nat}
    (closed : (s.workspace registry).Closed) {sheet : RuleSheet} {entries : Keyed Written}
    (listed : sheet.entries = .ok entries) (distinct : entries.names.Nodup)
    (used : ∀ row ∈ entries, row.2.InUse s.rules) (data overrides : Keyed Value) :
    (newValidator registry data sheet overrides s).2.Sound := by
  simp only [newValidator, tableOf, inSettings, inRegistry, Task.bind_eq]
  rcases Settings.truth stopSetting (.bool false) (s.settings.item mainId)
    with ⟨fault | stops, settings⟩
  · exact sound
  · have same : workspace { s with settings := s.settings.set mainId settings } registry =
        s.workspace registry := rfl
    have unset : s.KeptIn { s with settings := s.settings.set mainId settings } :=
      ⟨(KeptIn.refl s).workspace, fun _ => rfl⟩
    have worked := (RuleTable.ofEntries_keeps closed used).kept
    rw [← RuleTable.ofSheet_listed listed] at worked
    have kept := unset.absorbing worked
    simp only [same]
    rcases made : RuleTable.ofSheet sheet (s.workspace registry) with ⟨fault | table, w⟩
    · rw [made] at kept
      exact kept.sound sound
    · rw [made] at kept
      have tableSound : table.Sound (workspace (s.absorb registry w) registry) := by
        refine RuleTable.ofSheet_sound closed listed distinct used (by rw [made]) ?_
        rw [made]
        refine ⟨?_, Nat.le_refl _, fun _ _ => rfl⟩
        simp [absorb, workspace]
      exact (kept.sound sound).adding (v := { registry, data, overrides, stops, table }) tableSound

/-! ## Histories -/

/-- What may be done with the rules and the validators that there are. -/
inductive Use where
  /-- A rule checks a value outside a run. -/
  | check (id : RuleId) (value : Value)
  | violate (id : RuleId) (code : Value)
  | validate (id : Nat)
  | result (id : Nat)
  | changeData (id : Nat) (change : Keyed Value → Keyed Value)

namespace Use

/-- The session after a use, faulted or not. -/
def perform : Use → Session → Session
  | .check id value, session => (checkRule id value session).2
  | .violate id code, session => (changeRule id (·.violate code) session).2
  | .validate id, session => (Session.validate id session).2
  | .result id, session => (Session.result id session).2
  | .changeData id change, session => (Session.changeData id change session).2

/-- What becomes of the data of a validator. -/
def dataOf (id : Nat) : Use → Keyed Value → Keyed Value
  | .changeData other change, data => if other = id then change data else data
  | _, data => data

end Use

/-- The session after uses one after the other. -/
def after (uses : List Use) (session : Session) : Session :=
  uses.foldl (fun session use => use.perform session) session

/-- The data of a validator after uses one after the other. -/
def dataAfter (id : Nat) (uses : List Use) (data : Keyed Value) : Keyed Value :=
  uses.foldl (fun data use => use.dataOf id data) data

theorem result_session (id : Nat) (s : Session) : (result id s).2 = (runValidator id s).2 := by
  simp only [result, validate, validatorOf, Task.bind_eq, Task.get_eq, Task.pure_eq]
  rcases runValidator id s with ⟨fault | valid, s'⟩ <;> rfl

/-- One use changes nothing but what is recorded and the data of validators. -/
theorem Use.perform_kept (sound : s.Sound) (kept : s.KeptIn s') (use : Use) :
    s.KeptIn (use.perform s') := by
  cases use with
  | check id value => exact kept.checking rfl
  | violate id code => exact kept.checking rfl
  | validate id => exact kept.running sound id
  | result id =>
      rw [perform, result_session]
      exact kept.running sound id
  | changeData id change => exact kept.changing rfl

theorem after_kept (sound : s.Sound) (kept : s.KeptIn s') (uses : List Use) :
    s.KeptIn (after uses s') := by
  induction uses generalizing s' with
  | nil => exact kept
  | cons use rest ih => exact ih (use.perform_kept sound kept)

theorem runValidator_data (id other : Nat) (s : Session) :
    ((runValidator id s).2.validators.item other).data = (s.validators.item other).data := by
  rw [(runValidator_eq id s).2, Shelf.item_set]
  split
  · subst_vars
    rfl
  · rfl

theorem changeData_data (id other : Nat) (change : Keyed Value → Keyed Value) (s : Session) :
    ((changeData other change s).2.validators.item id).data =
      if other = id then change (s.validators.item id).data else (s.validators.item id).data := by
  simp only [changeData, changeValidator, Task.modify_eq, Shelf.modify, Shelf.item_set,
    eq_comm (a := id)]
  split
  · subst_vars
    rfl
  · rfl

theorem Use.perform_data (use : Use) (id : Nat) (s : Session) :
    ((use.perform s).validators.item id).data = use.dataOf id (s.validators.item id).data := by
  cases use with
  | check | violate => rfl
  | validate other => exact runValidator_data other id s
  | result other =>
      rw [perform, result_session]
      exact runValidator_data other id s
  | changeData other change => exact changeData_data id other change s

theorem after_data (uses : List Use) (id : Nat) (s : Session) :
    ((after uses s).validators.item id).data =
      dataAfter id uses (s.validators.item id).data := by
  induction uses generalizing s with
  | nil => rfl
  | cons use rest ih => exact (ih _).trans (by rw [use.perform_data]; rfl)

theorem dataAfter_left {id : Nat} {uses : List Use}
    (left : ∀ use ∈ uses, ∀ data, Use.dataOf id use data = data) (data : Keyed Value) :
    dataAfter id uses data = data := by
  induction uses with
  | nil => rfl
  | cons use rest ih =>
      have leftFirst := left use List.mem_cons_self data
      rw [dataAfter, List.foldl_cons, leftFirst]
      exact ih fun other member => left other (List.mem_cons_of_mem use member)

/-- No outcome depends on what was recorded. Whatever codes the rules have and whatever errors the
    validators, a validator comes to the same verdict, errors and result as if nothing had been
    recorded; and so it does after any checks, violations and runs, on the data that it has by then.
    In particular it does so again and again while its data are left alone, and once they are
    changed after a run, even if that was aborted. What the next run relies on holds again. -/
theorem outcome_unrecorded {session : Session} (sound : session.Sound)
    (codes : RuleId → List Value) (errors : Nat → Errors) (id : Nat) :
    let recorded := session.recording codes errors
    let unrecorded := session.recording (fun _ => []) fun _ => []
    SameOutcome id recorded unrecorded ∧
    (∀ uses, SameOutcome id (after uses recorded)
      (changeData id (dataAfter id uses) unrecorded).2) ∧
    (∀ uses, (∀ use ∈ uses, ∀ data, Use.dataOf id use data = data) →
      SameOutcome id (after uses recorded) unrecorded) ∧
    (∀ data, SameOutcome id (changeData id (fun _ => data) (runValidator id recorded).2).2
      (changeData id (fun _ => data) unrecorded).2) ∧
    ∀ uses, (after uses recorded).Sound := by
  intro recorded unrecorded
  have keptRecorded : session.KeptIn recorded := (KeptIn.refl session).recording codes errors
  have keptUnrecorded : session.KeptIn unrecorded := (KeptIn.refl session).recording _ _
  have keptChanged {s : Session} (kept : session.KeptIn s) (change : Keyed Value → Keyed Value) :
      session.KeptIn (changeData id change s).2 :=
    (Use.changeData id change).perform_kept sound kept
  refine ⟨keptRecorded.sameOutcome keptUnrecorded sound rfl, fun uses => ?used,
    fun uses left => ?left, fun data => ?corrected,
    fun uses => (after_kept sound keptRecorded uses).sound sound⟩
  case used =>
    apply (after_kept sound keptRecorded uses).sameOutcome (keptChanged keptUnrecorded _) sound
    rw [after_data, changeData_data, if_pos rfl]
    rfl
  case left =>
    apply (after_kept sound keptRecorded uses).sameOutcome keptUnrecorded sound
    rw [after_data]
    exact dataAfter_left left _
  case corrected =>
    have keptRun := keptChanged (keptRecorded.running sound id) fun _ => data
    apply keptRun.sameOutcome (keptChanged keptUnrecorded _) sound
    rw [changeData_data, changeData_data, if_pos rfl, if_pos rfl]

end Session

/-! ## A sample

Two attributes share a rule, which one of them holds twice, and the function of a third raises for
whole numbers.
-/

namespace Sample

def picky : Callable where
  id := 1
  name := "picky"
  run
    | [.int _] => .error (.raised .value "a whole number")
    | _ => .ok (.value (.bool true))

def sheet : Keyed Written :=
  [("code", .rule 1), ("nick", .list [.rule 1, .rule 1]), ("age", .callable picky)]

/-- A session with rules, without validators and with nothing set. -/
def start : Session where
  rules := workspace.rules
  settings := (Shelf.empty.add { dirty := false }).2

def shared : Session :=
  (Session.newValidator 0 [("code", .str "ab"), ("nick", .str "abcdef"), ("age", .int 7)]
    (.rules sheet)
    [("code.length.too_short", .str "Short"), ("nick.length.too_long", .str "Long")] start).2

/-- The sample with codes and errors that nothing of its data accounts for. -/
def stale : Session :=
  shared.recording (fun _ => [.str "too_short", .str "too_long"]) fun _ => [("age", [.str "Old"])]

def corrected : Keyed Value := [("code", .str "ab"), ("nick", .str "abc"), ("age", .str "7")]

theorem picky_inUse (rules : RuleStore) : picky.InUse rules := by
  intro arguments product given
  simp only [picky] at given
  split at given
  · exact nomatch given
  · cases given
    trivial

theorem shared_sound : shared.Sound := by
  have closed : (start.workspace 0).Closed := .ofStandard rfl
  have used : ∀ row ∈ sheet, row.2.InUse start.rules := by
    simp [sheet, Written.InUse, Written.AllInUse, start, workspace, picky_inUse]
  have sound := Session.sound_of_none rfl closed
  exact Session.newValidator_sound sound closed rfl (by decide) used _ _

end Sample

set_option maxRecDepth 4000 in
theorem Session.outcome_unrecorded_sample :
    Sample.shared.Sound ∧
      (runValidator 0 Sample.stale).1 = .error (.raised .value "a whole number") ∧
      ((runValidator 0 (changeData 0 (fun _ => Sample.corrected)
        (runValidator 0 Sample.stale).2).2).2.validators.item 0).errors =
          [("code", [.str "Short"])] := by
  obtain ⟨_, _, _, corrected, _⟩ := outcome_unrecorded Sample.shared_sound
    (fun _ => [.str "too_short", .str "too_long"]) (fun _ => [("age", [.str "Old"])]) 0
  exact ⟨Sample.shared_sound, by rfl, (corrected Sample.corrected).errors.trans (by rfl)⟩

end FieldRules
