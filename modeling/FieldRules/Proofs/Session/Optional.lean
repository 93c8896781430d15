import FieldRules.Proofs.Session.Exact

/-! # Two ways to make attributes optional

An attribute is optional if a rule in front of the others ends it when there is no value, or if each
of its rules lets empty values pass. On the first way the rules are not asked at all, on the second
they are asked one after the other; without a value neither records anything or stops, and with a
value the marks play no part. So a run cannot tell the two ways apart.
-/

namespace FieldRules

variable {w : Workspace} {overrides : Keyed Value} {stops : Bool}

/-! ## Marked rules -/

namespace RuleStore

/-- Some rules are marked to let empty values pass. -/
def allowingEmpty (rules : RuleStore) (ids : List RuleId) : RuleStore :=
  ids.foldl (fun rules id => rules.modify id (·.allowingEmpty (.bool true))) rules

theorem allowingEmpty_next (rules : RuleStore) (ids : List RuleId) :
    (rules.allowingEmpty ids).next = rules.next := by
  induction ids generalizing rules with
  | nil => rfl
  | cons id rest ih => exact ih _

theorem allowingEmpty_item (rules : RuleStore) (ids : List RuleId) (id : RuleId) :
    (rules.allowingEmpty ids).item id =
      if id ∈ ids then (rules.item id).allowingEmpty (.bool true) else rules.item id := by
  induction ids generalizing rules with
  | nil => rfl
  | cons first rest ih =>
      rw [allowingEmpty, List.foldl_cons, ← allowingEmpty, ih]
      simp only [Shelf.modify, Shelf.item_set, List.mem_cons]
      by_cases same : id = first
      · subst same
        simp [Rule.allowingEmpty]
      · simp [same]

end RuleStore

/-- A workspace in which some rules are marked to let empty values pass. -/
def Workspace.allowingEmpty (w : Workspace) (ids : List RuleId) : Workspace :=
  { w with rules := w.rules.allowingEmpty ids }

/-- A rule that is marked to let empty values pass. -/
def MetRule.allowingEmpty (met : MetRule) : MetRule :=
  { met with rule := met.rule.allowingEmpty (.bool true) }

theorem MetRule.ofShared_allowingEmpty (w : Workspace) (ids : List RuleId) (id : RuleId) :
    ofShared (w.allowingEmpty ids) id =
      if id ∈ ids then (ofShared w id).allowingEmpty else ofShared w id := by
  simp only [ofShared, Workspace.allowingEmpty, RuleStore.allowingEmpty_item]
  split <;> rfl

/-- Marks play no part where there is a value. -/
theorem Meeting.step_allowingEmpty {value : Value} (filled : value.isEmpty = false) (name : String)
    (met : MetRule) (recorded : Nat) :
    (Meeting.mk name value (.ok met.allowingEmpty)).step overrides recorded =
      (Meeting.mk name value (.ok met)).step overrides recorded := by
  have passes : met.allowingEmpty.passes value = met.passes value := by
    simp only [MetRule.passes, filled, Bool.and_false, Bool.false_eq_true, if_false]
    rfl
  have bypasses (met : MetRule) : met.bypasses value = false := by
    simp [MetRule.bypasses, filled]
  simp only [step, Meeting.bypasses, Meeting.passes, Except.bind, bypasses, passes]
  rfl

/-- Without a value, marked rules pass one after the other. -/
theorem Meeting.allPass_allowingEmpty {value : Value} (empty : value.isEmpty = true) (name : String)
    (rules : List MetRule) :
    AllPass (rules.map fun met => ⟨name, value, .ok met.allowingEmpty⟩) := by
  intro m member
  obtain ⟨met, _, rfl⟩ := List.mem_map.mp (effective_subset _ member)
  simp [Meeting.passes, Except.bind, MetRule.passes, MetRule.allowingEmpty, Rule.allowingEmpty,
    Value.isTruthy, empty]

/-- Attributes whose meetings take the same steps come to the same. -/
theorem Meeting.settle_congr {rules : List MetRule} {meet meet' : MetRule → Meeting}
    (same : ∀ met recorded, (meet' met).step overrides recorded = (meet met).step overrides recorded)
    (recorded : List Value) :
    settle overrides stops recorded (rules.map meet') =
      settle overrides stops recorded (rules.map meet) := by
  induction rules generalizing recorded with
  | nil => rfl
  | cons met rest ih =>
      simp only [List.map_cons, settle, same, ih]

/-- A rule that makes the others optional and marks on all the others come to the same. -/
theorem Meeting.settle_optional {first : MetRule} (sometimes : first.rule.kind = .sometimes)
    (name : String) (value : Value) (rules : List MetRule) :
    settle overrides stops []
        (⟨name, value, .ok first⟩ :: rules.map fun met => ⟨name, value, .ok met⟩) =
      settle overrides stops [] (rules.map fun met => ⟨name, value, .ok met.allowingEmpty⟩) := by
  -- Without a value all is bypassed or passes; with one neither the rule nor the marks matter.
  by_cases empty : value.isEmpty = true
  · have bypassed : (Meeting.mk name value (.ok first)).bypasses = true := by
      simp [bypasses, MetRule.bypasses, sometimes, RuleKind.isSometimes, empty]
    rw [settle_bypass bypassed, (settle_allPass _ _).mpr (allPass_allowingEmpty empty name rules)]
  · have filled := Bool.not_eq_true _ ▸ empty
    have applies : (Meeting.mk name value (.ok first)).bypasses = false := by
      simp [bypasses, MetRule.bypasses, filled]
    have passed : (Meeting.mk name value (.ok first)).passes = .ok true := by
      simp [passes, Except.bind, MetRule.passes, sometimes, RuleKind.report, Report.decided]
    rw [settle_pass (fun _ => rfl) applies passed]
    exact (settle_congr (step_allowingEmpty filled name) []).symm

/-! ## Tables -/

namespace TableEntry

/-- The rule that an entry is bound to. -/
def rule? : TableEntry → Option RuleId
  | bound id => some id
  | callable _ => none

/-- Whether an entry never stands for one of some rules that exist already. -/
def Avoids (ids : List RuleId) : TableEntry → Prop
  | bound id => id ∉ ids
  | callable c => ∀ value id, c.run [value] = .ok (.shared id) → id ∉ ids

theorem met_avoiding {ids : List RuleId} {entry : TableEntry} (avoids : entry.Avoids ids)
    (w : Workspace) (value : Value) : entry.met (w.allowingEmpty ids) value = entry.met w value := by
  cases entry with
  | bound id => simp only [met, MetRule.ofShared_allowingEmpty, if_neg avoids]
  | callable c =>
      simp only [met]
      cases given : c.run [value] with
      | error fault => rfl
      | ok product =>
          cases product with
          | shared id =>
              simp only [Except.bind, Product.met, MetRule.ofShared_allowingEmpty,
                if_neg (avoids value id given)]
          | fresh | value | foreign => rfl

end TableEntry

namespace RuleTable

/-- A table with one rule more in front of the rules of each chosen attribute. -/
def fronted (table : RuleTable) (chosen : String → Bool) (first : String → RuleId) : RuleTable :=
  table.map fun row =>
    if chosen row.1 then (row.1, .bound (first row.1) :: row.2) else row

/-- The rules of the chosen attributes. -/
def rulesOf (table : RuleTable) (chosen : String → Bool) : List RuleId :=
  table.flatMap fun row => if chosen row.1 then row.2.filterMap TableEntry.rule? else []

theorem mem_rulesOf {table : RuleTable} {chosen : String → Bool} {row : String × List TableEntry}
    (member : row ∈ table) (picked : chosen row.1 = true) {id : RuleId}
    (inside : .bound id ∈ row.2) : id ∈ table.rulesOf chosen := by
  refine List.mem_flatMap.mpr ⟨row, member, ?_⟩
  rw [if_pos picked]
  exact List.mem_filterMap.mpr ⟨_, inside, rfl⟩

theorem fronted_names (table : RuleTable) (chosen : String → Bool) (first : String → RuleId) :
    Keyed.names (table.fronted chosen first) = Keyed.names table := by
  simp only [fronted, Keyed.names, List.map_map]
  refine List.map_congr_left fun row _ => ?_
  by_cases picked : chosen row.1 = true <;> simp [picked]

/-- What is asked of chosen attributes: there is a rule for each to make the others optional, their
    entries are rules, and no other attribute stands for one of these. -/
structure MadeOptional (w : Workspace) (table : RuleTable) (chosen : String → Bool)
    (first : String → RuleId) : Prop where
  present : ∀ row ∈ table, chosen row.1 = true → first row.1 < w.rules.next
  sometimes : ∀ row ∈ table, chosen row.1 = true → (w.rules.item (first row.1)).kind = .sometimes
  rules : ∀ row ∈ table, chosen row.1 = true → ∃ ids : List RuleId, row.2 = ids.map .bound
  unshared : ∀ row ∈ table, chosen row.1 = false →
    ∀ entry ∈ row.2, entry.Avoids (table.rulesOf chosen)

variable {table : RuleTable} {chosen : String → Bool} {first : String → RuleId}

theorem meetings_bound (w : Workspace) (data : Keyed Value) (name : String) (ids : List RuleId) :
    meetings w data name (ids.map .bound) = (ids.map (MetRule.ofShared w)).map fun met =>
      ⟨name, (data.get? name).getD .missing, .ok met⟩ := by
  simp only [meetings, List.map_map]
  rfl

theorem meetings_allowingEmpty (w : Workspace) (data : Keyed Value) (name : String)
    {ids marked : List RuleId} (inside : ∀ id ∈ ids, id ∈ marked) :
    meetings (w.allowingEmpty marked) data name (ids.map .bound) =
      (ids.map (MetRule.ofShared w)).map fun met =>
        ⟨name, (data.get? name).getD .missing, .ok met.allowingEmpty⟩ := by
  simp only [meetings, List.map_map]
  refine List.map_congr_left fun id member => ?_
  simp only [Function.comp_apply, TableEntry.met, MetRule.ofShared_allowingEmpty,
    if_pos (inside id member)]

/-- Each attribute comes to the same on both ways. -/
theorem MadeOptional.settle_row (optional : MadeOptional w table chosen first) (data : Keyed Value)
    {row : String × List TableEntry} (member : row ∈ table) :
    Meeting.settle overrides stops []
        (meetings (w.allowingEmpty (table.rulesOf chosen)) data row.1 row.2) =
      Meeting.settle overrides stops [] (meetings w data row.1
        (if chosen row.1 then .bound (first row.1) :: row.2 else row.2)) := by
  by_cases picked : chosen row.1 = true
  · obtain ⟨ids, isRules⟩ := optional.rules row member picked
    have inside : ∀ id ∈ ids, id ∈ table.rulesOf chosen := fun id given =>
      mem_rulesOf member picked (isRules ▸ List.mem_map_of_mem given)
    have sometimes : (MetRule.ofShared w (first row.1)).rule.kind = .sometimes :=
      optional.sometimes row member picked
    rw [if_pos picked, isRules, meetings_allowingEmpty w data row.1 inside,
      ← Meeting.settle_optional sometimes, ← meetings_bound]
    rfl
  · have unpicked := Bool.not_eq_true _ ▸ picked
    rw [if_neg picked]
    have same : meetings (w.allowingEmpty (table.rulesOf chosen)) data row.1 row.2 =
        meetings w data row.1 row.2 := by
      refine List.map_congr_left fun entry inside => ?_
      rw [TableEntry.met_avoiding (optional.unshared row member unpicked entry inside)]
    rw [same]

end RuleTable

/-- Agendas whose attributes come to the same come to the same. -/
theorem Agenda.settle_congr (overrides : Keyed Value) (stops : Bool) {α : Type} {rows : Keyed α}
    {meet meet' : String × α → List Meeting}
    (same : ∀ row ∈ rows, Meeting.settle overrides stops [] (meet' row) =
      Meeting.settle overrides stops [] (meet row)) :
    Agenda.settle overrides stops (rows.map fun row => (row.1, meet' row)) =
      Agenda.settle overrides stops (rows.map fun row => (row.1, meet row)) := by
  induction rows with
  | nil => rfl
  | cons row rest ih =>
      obtain ⟨here, later⟩ := List.forall_mem_cons.mp same
      simp only [List.map_cons, settle, here, ih later]

namespace RuleTable

theorem MadeOptional.fronted_sound {table : RuleTable} {chosen : String → Bool}
    {first : String → RuleId} (optional : table.MadeOptional w chosen first)
    (sound : table.Sound w) : (table.fronted chosen first).Sound w where
  distinct := by
    rw [fronted_names]
    exact sound.distinct
  used row member entry inside := by
    obtain ⟨old, oldMember, rfl⟩ := List.mem_map.mp member
    by_cases picked : chosen old.1 = true
    · rw [if_pos picked] at inside
      rcases List.mem_cons.mp inside with rfl | later
      · exact optional.present old oldMember picked
      · exact sound.used old oldMember entry later
    · rw [if_neg picked] at inside
      exact sound.used old oldMember entry inside
  registered := sound.registered

theorem Sound.allowingEmpty {table : RuleTable} (sound : table.Sound w) (ids : List RuleId) :
    table.Sound (w.allowingEmpty ids) where
  distinct := sound.distinct
  used row member entry inside :=
    (sound.used row member entry inside).mono (Nat.le_of_eq (w.rules.allowingEmpty_next ids).symm)
  registered identifier id member := by
    rw [Workspace.allowingEmpty, RuleStore.allowingEmpty_next]
    exact sound.registered identifier id member

end RuleTable

/-- A run comes to the same on both ways. -/
theorem RuleTable.MadeOptional.answer {table : RuleTable} {chosen : String → Bool}
    {first : String → RuleId} (optional : table.MadeOptional w chosen first) (data : Keyed Value) :
    (table.agenda (w.allowingEmpty (table.rulesOf chosen)) data).answer overrides stops =
      ((table.fronted chosen first).agenda w data).answer overrides stops := by
  have fronted : (table.fronted chosen first).agenda w data = table.map fun row =>
      (row.1, meetings w data row.1
        (if chosen row.1 then .bound (first row.1) :: row.2 else row.2)) := by
    simp only [agenda, RuleTable.fronted, List.map_map]
    refine List.map_congr_left fun row _ => ?_
    by_cases picked : chosen row.1 = true <;> simp [picked]
  have settled := Agenda.settle_congr overrides stops
    fun row member => optional.settle_row data member
  rw [Agenda.answer, Agenda.answer, fronted, agenda, settled]

/-! ## Validators -/

/-- What is written for an entry that is to be this one. -/
def TableEntry.written : TableEntry → Written
  | bound id => .rule id
  | callable c => .callable c

/-- What is written for a table that is to be this one. -/
def RuleTable.written (table : RuleTable) : RuleSheet :=
  .rules (table.map fun row => (row.1, .list (row.2.map TableEntry.written)))

theorem TableEntry.ofSequence_written (rules : RuleStore) (entries : List TableEntry) :
    ofSequence rules (entries.map written) = .ok entries := by
  induction entries with
  | nil => rfl
  | cons entry rest ih =>
      simp only [List.map_cons, ofSequence, ih]
      cases entry <;> rfl

theorem RuleTable.ofSheet_written (table : RuleTable) (w : Workspace) :
    ofSheet table.written w = (.ok table, w) := by
  rw [ofSheet_listed rfl]
  induction table with
  | nil => rfl
  | cons row rest ih =>
      have own : attributeEntries (.list (row.2.map TableEntry.written)) w = (.ok row.2, w) :=
        Prod.ext (TableEntry.ofSequence_written w.rules row.2) rfl
      simp only [List.map_cons, ofEntries, Task.bind_eq, own, ih]
      rfl

namespace Session

variable {s : Session} {id : Nat}

/-- Marks several rules to let empty values pass. -/
def allowEmpty : List RuleId → Action Unit
  | [] => return
  | id :: rest => do
    changeRule id (·.allowingEmpty (.bool true))
    allowEmpty rest

theorem allowEmpty_eq (ids : List RuleId) (s : Session) :
    (allowEmpty ids s).2 = { s with rules := s.rules.allowingEmpty ids } := by
  induction ids generalizing s with
  | nil => rfl
  | cons id rest ih =>
      rw [allowEmpty, Task.bind_eq, changeRule, Task.modify_eq]
      exact ih _

theorem absorb_self (s : Session) (registry : Nat) :
    s.absorb registry (s.workspace registry) = s := by
  have same : s.registries.set registry (s.registries.item registry) = s.registries := by
    simp only [Shelf.set]
    congr 1
    funext other
    split
    · subst_vars
      rfl
    · rfl
  simp only [absorb, workspace, List.foldl_nil, same]

/-- The rules of a validator are replaced by a table that is written down. -/
theorem setRules_written (id : Nat) (table : RuleTable) (s : Session) :
    setRules id table.written s = (.ok (), { s with
      validators := s.validators.set id { s.validators.item id with table } }) := by
  simp only [setRules, validatorOf, tableOf, inRegistry, Task.bind_eq, Task.get_eq, Task.pure_eq,
    RuleTable.ofSheet_written, absorb_self, changeValidator, Task.modify_eq]
  rfl

/-- Two ways to make attributes optional agree. Take any attributes of a validator whose entries are
    rules that no other attribute stands for. Whether each gets a rule in front that makes the others
    optional, or all of their rules are marked to let empty values pass, the validator comes to the
    same verdict, errors and result, for all data and overrides and in both modes. The attributes may
    have rules that make others optional already. -/
theorem optional_agree {v : Validator} (held : s.validators.item id = v)
    (sound : v.table.Sound (s.workspace v.registry)) {chosen : String → Bool}
    {first : String → RuleId}
    (optional : v.table.MadeOptional (s.workspace v.registry) chosen first) :
    (setRules id (v.table.fronted chosen first).written s).1 = .ok () ∧
      SameOutcome id (setRules id (v.table.fronted chosen first).written s).2
        (allowEmpty (v.table.rulesOf chosen) s).2 := by
  subst held
  rw [setRules_written, allowEmpty_eq]
  have fronted := Validator.answer_eq
    (v := { s.validators.item id with table := (s.validators.item id).table.fronted chosen first })
    (optional.fronted_sound sound)
  have marked := Validator.answer_eq (v := s.validators.item id)
    (sound.allowingEmpty ((s.validators.item id).table.rulesOf chosen))
  refine ⟨rfl, .ofAnswer ?_ (by simp) (by simp [RuleTable.fronted_names])⟩
  simp only [Shelf.item_set, if_true]
  exact marked.trans ((optional.answer _).trans fronted.symm)

end Session

namespace Sample

/-- A validator in stop mode of an attribute without a value, which is required and has a least
    length, and of another one that is refused. -/
def strictness : Validator where
  registry := 0
  data := [("nick", .str ""), ("code", .str "x")]
  overrides := [("code.0", .str "Refused")]
  stops := true
  table := [("nick", [.bound 1, .bound 2]), ("code", [.callable refusal])]

def strictSession : Session := { start with validators := (Shelf.empty.add strictness).2 }

theorem strictness_sound : strictness.table.Sound (strictSession.workspace 0) where
  distinct := by decide
  used := by
    simp [strictness, TableEntry.InUse, strictSession, Session.workspace, start, workspace,
      Callable.InUse, refusal, Product.InUse]
  registered := start_closed.registered

theorem strictness_optional : strictness.table.MadeOptional (strictSession.workspace 0)
    (· == "nick") fun _ => 0 where
  present _ _ _ := by decide
  sometimes _ _ _ := rfl
  rules := by
    simp only [strictness, List.forall_mem_cons]
    exact ⟨fun _ => ⟨[1, 2], rfl⟩, by simp, by simp⟩
  unshared := by simp [strictness, TableEntry.Avoids, refusal]

end Sample

set_option maxRecDepth 4000 in
theorem Session.optional_agree_sample :
    let fronted := (setRules 0 (RuleTable.written [("nick", [.bound 0, .bound 1, .bound 2]),
      ("code", [.callable Sample.refusal])]) Sample.strictSession).2
    let marked := (allowEmpty [1, 2] Sample.strictSession).2
    SameOutcome 0 fronted marked ∧
      ((runValidator 0 fronted).2.validators.item 0).errors = [("code", [.str "Refused"])] := by
  have held : Sample.strictSession.validators.item 0 = _ := rfl
  have agree := (optional_agree held Sample.strictness_sound Sample.strictness_optional).2
  exact ⟨agree, agree.errors.trans (by rfl)⟩

end FieldRules
