import FieldRules.Proofs.Registry.Outcomes
import FieldRules.Proofs.Validation.Agenda

/-! # What entries stand for

All that a run asks of an entry is which rule it stands for at each value. Tables whose entries
stand for the same rules come to the same agenda, and so to the same answers, whatever the
identities of the rules are. And what is written as the rules of an attribute stands for the same
whenever it is made into entries, as long as nothing else is registered and no rule string is
forgotten: a rule string is made into new rules each time, but into rules that are met alike.
-/

namespace FieldRules

/-- The rule that an entry stands for at each value. -/
abbrev Encounter := Value → Outcome MetRule

/-- Meeting one rule, whatever the value. -/
def MetRule.always (met : MetRule) : Encounter := fun _ => .ok met

namespace TableEntry

def encounter (w : Workspace) (entry : TableEntry) : Encounter := fun value => entry.met w value

end TableEntry

/-- The meetings that encounters with data come to. -/
def Agenda.ofEncounters (data : Keyed Value) (encounters : Keyed (List Encounter)) : Agenda :=
  encounters.map fun row =>
    let value := (data.get? row.1).getD .missing
    (row.1, row.2.map fun encounter => ⟨row.1, value, encounter value⟩)

namespace RuleTable

/-- What the entries of a table stand for. -/
def encounters (w : Workspace) (table : RuleTable) : Keyed (List Encounter) :=
  table.map fun row => (row.1, row.2.map (TableEntry.encounter w))

theorem encounters_names (w : Workspace) (table : RuleTable) :
    (table.encounters w).names = Keyed.names table := by
  simp only [encounters, Keyed.names, List.map_map, Function.comp_def]

theorem agenda_ofEncounters (w : Workspace) (data : Keyed Value) (table : RuleTable) :
    table.agenda w data = .ofEncounters data (table.encounters w) := by
  simp only [agenda, meetings, Agenda.ofEncounters, encounters, List.map_map, Function.comp_def]
  rfl

end RuleTable

/-- Everything is kept, and every rule string is read as before. -/
structure Workspace.ContinuedIn (w w' : Workspace) : Prop where
  kept : w.KeptIn w'
  reading (spec : String) : w'.registry.reading spec = w.registry.reading spec

variable {w w' w'' : Workspace}

namespace Workspace.ContinuedIn

theorem refl (w : Workspace) : w.ContinuedIn w := ⟨.refl w, fun _ => rfl⟩

theorem trans (first : w.ContinuedIn w') (second : w'.ContinuedIn w'') : w.ContinuedIn w'' where
  kept := first.kept.trans second.kept
  reading spec := (second.reading spec).trans (first.reading spec)

theorem ofRegistry (kept : w.KeptIn w') (same : w'.registry = w.registry) : w.ContinuedIn w' where
  kept := kept
  reading spec := by rw [same]

end Workspace.ContinuedIn

/-! ## Rule strings -/

/-- The rule that a made rule is met as. -/
def MadeRule.met (w : Workspace) : MadeRule → MetRule
  | shared id => .ofShared w id
  | fresh rule => .ofNew rule

theorem MadeRule.met_kept (kept : w.KeptIn w') {made : MadeRule} (used : made.InUse w.rules) :
    made.met w' = made.met w := by
  cases made with
  | shared id => exact MetRule.ofShared_kept kept used
  | fresh rule => rfl

/-- A rule is met as what it is described as, since new rules are registered nowhere. -/
theorem MetRule.ofShared_described (kept : w.KeptIn w') (registered : w.registry.InUse w.rules)
    (id : RuleId) : ofShared w' id = (w.rules.described w'.rules id).met w := by
  simp only [RuleStore.described]
  split
  next below => exact ofShared_kept kept below
  next new =>
    have unregistered := registered.unregistered (Nat.le_of_not_lt new)
    simp only [MadeRule.met, ofShared, ofNew, kept.identifierOf, unregistered]

namespace Registry

theorem parse_continued (spec : String) (w : Workspace) : w.ContinuedIn (parse spec w).2 where
  kept := (parse_grown spec w).kept
  reading := (parse_grown spec w).reading

/-- The rules of tokens are met as what the tokens stand for, whenever they are made. -/
theorem buildTokens_met (closed : w.Closed) (kept : w.KeptIn w') (closed' : w'.Closed)
    {tokens : List Token} (used : ∀ token ∈ tokens, token.factory.InUse w.rules) :
    (buildTokens tokens w').1.map (List.map (MetRule.ofShared (buildTokens tokens w').2)) =
      (tokens.mapM Token.made).map (List.map (MadeRule.met w)) := by
  have later : ∀ token ∈ tokens, token.factory.InUse w'.rules :=
    fun token member => (used token member).mono kept.next
  have built := kept.trans (buildTokens_keeps closed' later).kept
  rw [← buildTokens_described used kept.next]
  rcases ran : buildTokens tokens w' with ⟨fault | ids, w''⟩
  · rfl
  · rw [ran] at built
    simp only [Except.map, List.map_map, Function.comp_def]
    exact congrArg Except.ok
      (List.map_congr_left fun id _ => MetRule.ofShared_described built closed.registered id)

/-- The rules of a rule string are met as what its tokens stand for. -/
theorem parse_met (closed : w.Closed) (spec : String) :
    (parse spec w).1.map (List.map (MetRule.ofShared (parse spec w).2)) =
      ((w.registry.reading spec).bind (·.mapM Token.made)).map (List.map (MadeRule.met w)) := by
  have kept := (parse_keeps closed spec).kept
  rw [← Workspace.parsed_eq closed, Workspace.parsed]
  rcases ran : parse spec w with ⟨fault | ids, w'⟩
  · rfl
  · rw [ran] at kept
    simp only [Except.map, List.map_map, Function.comp_def]
    exact congrArg Except.ok
      (List.map_congr_left fun id _ => MetRule.ofShared_described kept closed.registered id)

end Registry

theorem Token.mapM_made_inUse {rules : RuleStore} {tokens : List Token}
    (used : ∀ token ∈ tokens, token.factory.InUse rules) {made : List MadeRule}
    (given : tokens.mapM Token.made = .ok made) : ∀ rule ∈ made, rule.InUse rules := by
  intro rule member
  obtain ⟨token, inside, tokenMade⟩ := Outcome.mapM_ok given member
  exact Factory.made_inUse (used token inside) tokenMade

/-! ## What is written -/

namespace Written

/-- The entries of what is written, if it is no rule string. -/
def listed (rules : RuleStore) : Written → Outcome (List TableEntry)
  | list items | tuple items => TableEntry.ofSequence rules items
  | value (.list items) | value (.tuple items) => TableEntry.ofSequence rules (items.map value)
  | written => (TableEntry.ofWritten rules written).map ([·])

/-- What is written for the rules of an attribute stands for these encounters. -/
def encounters (w : Workspace) (written : Written) : Outcome (List Encounter) :=
  let made := RuleTable.attributeEntries written w
  made.1.map (List.map (TableEntry.encounter made.2))

end Written

/-- What is no entry is refused for its own sake, whatever rules there are. -/
theorem TableEntry.ofWritten_rules (rules rules' : RuleStore) (written : Written) :
    ofWritten rules' written = ofWritten rules written := by
  cases written <;> rfl

theorem TableEntry.ofSequence_rules (rules rules' : RuleStore) (items : List Written) :
    ofSequence rules' items = ofSequence rules items := by
  induction items with
  | nil => rfl
  | cons written rest ih => simp only [ofSequence, ofWritten_rules rules rules' written, ih]

namespace Written

theorem listed_rules (rules rules' : RuleStore) (written : Written) :
    written.listed rules' = written.listed rules := by
  have sequence := TableEntry.ofSequence_rules rules rules'
  cases written with
  | list items | tuple items => exact sequence items
  | rule | ofClass | callable => rfl
  | value v =>
      cases v with
      | list items | tuple items => exact sequence _
      | _ => rfl

theorem attributeEntries_listed {written : Written} (other : ∀ spec, written ≠ value (.str spec))
    (w : Workspace) : RuleTable.attributeEntries written w = (written.listed w.rules, w) := by
  cases written with
  | list items | tuple items => rfl
  | rule | callable | ofClass => rfl
  | value v =>
      cases v with
      | str spec => exact absurd rfl (other spec)
      | _ => rfl

theorem encounters_str (closed : w.Closed) (spec : String) :
    encounters w (value (.str spec)) =
      (w.registry.reading spec).bind fun read =>
        (read.mapM Token.made).map (List.map fun made => (made.met w).always) := by
  have met := Registry.parse_met closed spec
  rw [encounters, RuleTable.attributeEntries_str]
  have both (outcome : Outcome (List RuleId)) (w' : Workspace) :
      (outcome.map (List.map TableEntry.bound)).map (List.map (TableEntry.encounter w')) =
        (outcome.map (List.map (MetRule.ofShared w'))).map (List.map MetRule.always) := by
    cases outcome with
    | error fault => rfl
    | ok ids => simp only [Except.map, List.map_map]; rfl
  simp only
  rw [both, met]
  cases w.registry.reading spec with
  | error fault => rfl
  | ok read =>
      show ((read.mapM Token.made).map _).map _ = (read.mapM Token.made).map _
      cases read.mapM Token.made with
      | error fault => rfl
      | ok made => simp only [Except.map, List.map_map]; rfl

/-- What is written stands for the same as long as no rule string is read otherwise. -/
theorem encounters_continued (closed : w.Closed) (continued : w.ContinuedIn w') (closed' : w'.Closed)
    {written : Written} (used : written.InUse w.rules) :
    written.encounters w' = written.encounters w := by
  by_cases string : ∃ spec, written = value (.str spec)
  · obtain ⟨spec, rfl⟩ := string
    rw [encounters_str closed', encounters_str closed, continued.reading]
    cases given : w.registry.reading spec with
    | error fault => rfl
    | ok read =>
        show (read.mapM Token.made).map _ = (read.mapM Token.made).map _
        rcases made : read.mapM Token.made with fault | rules
        · rfl
        · have rulesUsed := Token.mapM_made_inUse (Registry.reading_inUse closed given) made
          refine congrArg Except.ok (List.map_congr_left fun rule member => ?_)
          rw [MadeRule.met_kept continued.kept (rulesUsed rule member)]
  · have other : ∀ spec, written ≠ value (.str spec) := fun spec same => string ⟨spec, same⟩
    have given := (RuleTable.attributeEntries_keeps closed used).given
    simp only [encounters, attributeEntries_listed other, listed_rules w.rules w'.rules] at given ⊢
    cases listed : written.listed w.rules with
    | error fault => rfl
    | ok entries =>
        have entriesUsed := given entries listed
        refine congrArg Except.ok (List.map_congr_left fun entry member => ?_)
        exact funext (TableEntry.met_kept continued.kept (entriesUsed entry member))

end Written

/-! ## Tables -/

namespace RuleTable

/-- The entries of a table stand for the same as long as a workspace is kept. -/
theorem encounters_kept (kept : w.KeptIn w') {table : RuleTable}
    (used : ∀ row ∈ table, ∀ entry ∈ row.2, entry.InUse w.rules) :
    table.encounters w' = table.encounters w := by
  refine List.map_congr_left fun row member => congrArg (Prod.mk row.1) ?_
  refine List.map_congr_left fun entry inside => ?_
  exact funext (TableEntry.met_kept kept (used row member entry inside))

theorem attributeEntries_continued (written : Written) (w : Workspace) :
    w.ContinuedIn (attributeEntries written w).2 := by
  by_cases string : ∃ spec, written = .value (.str spec)
  · obtain ⟨spec, rfl⟩ := string
    rw [attributeEntries_str]
    exact Registry.parse_continued spec w
  · rw [Written.attributeEntries_listed fun spec same => string ⟨spec, same⟩]
    exact .refl w

/-- What the rows of a sheet stand for. -/
def rowEncounters (w : Workspace) : Keyed Written → Outcome (Keyed (List Encounter))
  | [] => .ok []
  | (name, written) :: rest => do
    let own ← written.encounters w
    return (name, own) :: (← rowEncounters w rest)

theorem rowEncounters_cons {name : String} {written : Written} {rest : Keyed Written}
    {encounters : Keyed (List Encounter)}
    (given : rowEncounters w ((name, written) :: rest) = .ok encounters) :
    ∃ own others, written.encounters w = .ok own ∧ rowEncounters w rest = .ok others ∧
      encounters = (name, own) :: others := by
  obtain ⟨own, ownGiven, given⟩ := Outcome.bind_ok given
  obtain ⟨others, othersGiven, given⟩ := Outcome.bind_ok given
  exact ⟨own, others, ownGiven, othersGiven, (Except.ok.inj given).symm⟩

theorem rowEncounters_names {rows : Keyed Written} {encounters : Keyed (List Encounter)}
    (given : rowEncounters w rows = .ok encounters) : encounters.names = rows.names := by
  induction rows generalizing encounters with
  | nil =>
      obtain rfl := Except.ok.inj given
      rfl
  | cons row rest ih =>
      obtain ⟨own, others, _, othersGiven, rfl⟩ := rowEncounters_cons given
      exact congrArg (row.1 :: ·) (ih othersGiven)

/-- What holds of all that rows stand for holds of what each row stands for. -/
theorem rowEncounters_forall {rows : Keyed Written} {encounters : Keyed (List Encounter)}
    (given : rowEncounters w rows = .ok encounters) (holds : String × List Encounter → Prop) :
    (∀ row ∈ encounters, holds row) ↔
      ∀ row ∈ rows, ∃ own, row.2.encounters w = .ok own ∧ holds (row.1, own) := by
  induction rows generalizing encounters with
  | nil =>
      obtain rfl := Except.ok.inj given
      simp
  | cons row rest ih =>
      obtain ⟨own, others, ownGiven, othersGiven, rfl⟩ := rowEncounters_cons given
      rw [List.forall_mem_cons, List.forall_mem_cons, ih othersGiven]
      simp [ownGiven]

/-- A table that is made from rows stands for what the rows do, whenever it is made. -/
theorem ofEntries_encounters (closed : w.Closed) (continued : w.ContinuedIn w')
    (closed' : w'.Closed) {rows : Keyed Written} (used : ∀ row ∈ rows, row.2.InUse w.rules) :
    w.ContinuedIn (ofEntries rows w').2 ∧
      (ofEntries rows w').1.map (encounters (ofEntries rows w').2) = rowEncounters w rows := by
  induction rows generalizing w' with
  | nil => exact ⟨continued, rfl⟩
  | cons row rest ih =>
      obtain ⟨name, written⟩ := row
      obtain ⟨firstUsed, restUsed⟩ := List.forall_mem_cons.mp used
      have firstUsed' := firstUsed.mono continued.kept.next
      have own := written.encounters_continued closed continued closed' firstUsed
      have first := continued.trans (attributeEntries_continued written w')
      obtain ⟨_, closed₁, given⟩ := attributeEntries_keeps closed' firstUsed'
      rw [rowEncounters, ← own, Written.encounters]
      simp only [ofEntries, Task.bind_eq]
      rcases made : attributeEntries written w' with ⟨fault | entries, w₁⟩
      · rw [made] at first
        exact ⟨first, rfl⟩
      · rw [made] at first closed₁ given
        obtain ⟨restContinued, restSame⟩ := ih first closed₁ restUsed
        have restUsed₁ : ∀ row ∈ rest, row.2.InUse w₁.rules := fun row member =>
          (restUsed row member).mono first.kept.next
        have restKept := (ofEntries_keeps closed₁ restUsed₁).kept
        rw [← restSame]
        simp only
        rcases later : ofEntries rest w₁ with ⟨fault | table, w₂⟩
        · rw [later] at restContinued
          exact ⟨restContinued, rfl⟩
        · rw [later] at restContinued restKept
          refine ⟨restContinued, congrArg Except.ok ?_⟩
          have kept : entries.map (TableEntry.encounter w₂) = entries.map (TableEntry.encounter w₁) :=
            List.map_congr_left fun entry member =>
              funext (TableEntry.met_kept restKept (given entries rfl entry member))
          exact congrArg (fun own => (name, own) :: encounters w₂ table) kept

theorem rowEncounters_continued (closed : w.Closed) (continued : w.ContinuedIn w')
    (closed' : w'.Closed) {rows : Keyed Written} (used : ∀ row ∈ rows, row.2.InUse w.rules) :
    rowEncounters w' rows = rowEncounters w rows := by
  have used' : ∀ row ∈ rows, row.2.InUse w'.rules := fun row member =>
    (used row member).mono continued.kept.next
  have here := (ofEntries_encounters closed' (.refl w') closed' used').2
  exact here.symm.trans (ofEntries_encounters closed continued closed' used).2

/-- Rules may be replaced by others that stand for the same. -/
theorem rowEncounters_replaced {written other : Written}
    (same : other.encounters w = written.encounters w) (before : Keyed Written) (name : String)
    (after : Keyed Written) :
    rowEncounters w (before ++ (name, other) :: after) =
      rowEncounters w (before ++ (name, written) :: after) := by
  induction before with
  | nil => simp only [List.nil_append, rowEncounters, same]
  | cons row rest ih => simp only [List.cons_append, rowEncounters, ih]

/-- A run comes to what the encounters of its table come to. -/
theorem run_encounters (input : RunInput) {table : RuleTable} (sound : table.Sound w) :
    (run input table w).1 =
      (Agenda.ofEncounters input.data (table.encounters w)).answer input.overrides input.stops := by
  rw [run_eq_answer input sound (.refl w), agenda_ofEncounters]

end RuleTable

/-! ## Runs leave registries alone -/

/-- A task that leaves the registry as it is. -/
def Task.LeavesRegistry {α : Type} (task : Task α) : Prop :=
  ∀ w, (task w).2.registry = w.registry

theorem Task.LeavesRegistry.bind {α β : Type} {task : Task α} {next : α → Task β}
    (first : LeavesRegistry task) (second : ∀ a, LeavesRegistry (next a)) :
    LeavesRegistry (task >>= next) := by
  intro w
  have here := first w
  rw [Task.bind_eq]
  rcases ran : task w with ⟨fault | a, w'⟩ <;> rw [ran] at here
  · exact here
  · exact (second a w').trans here

theorem TableEntry.resolve_registry (entry : TableEntry) (value : Value) :
    Task.LeavesRegistry (entry.resolve value) := by
  cases entry with
  | bound id => exact fun _ => rfl
  | callable c =>
      refine .bind (c.call_detached [value]).registry fun product => ?_
      cases product with
      | shared | fresh | foreign => exact fun _ => rfl
      | value v => exact .bind (fun _ => rfl) fun _ _ => rfl

namespace Run

theorem passes_registry (id : RuleId) (value : Value) : Task.LeavesRegistry (passes id value) := by
  refine .bind (fun _ => rfl) fun rule => ?_
  split
  · exact fun _ => rfl
  · exact .bind (fun _ => rfl) fun _ _ => rfl

theorem step_registry (overrides : Keyed Value) (name : String) (value : Value) (recorded : Nat)
    (entry : TableEntry) : Task.LeavesRegistry (step overrides name value recorded entry) := by
  refine .bind (entry.resolve_registry value) fun id => .bind (fun _ => rfl) fun rule => ?_
  split
  · exact fun _ => rfl
  · refine .bind (passes_registry id value) fun passed => ?_
    split
    · exact fun _ => rfl
    · exact .bind (fun _ => rfl) fun _ _ => rfl

theorem checkAttribute_registry (input : RunInput) (name : String) (value : Value)
    (recorded : List Value) (w : Workspace) (entries : List TableEntry) :
    (checkAttribute input name value recorded w entries).2.registry = w.registry := by
  induction entries generalizing recorded w with
  | nil => rfl
  | cons entry rest ih =>
      have here := step_registry input.overrides name value recorded.length entry w
      rw [checkAttribute]
      rcases ran : step input.overrides name value recorded.length entry w with ⟨outcome, w'⟩
      rw [ran] at here
      rcases outcome with fault | step
      · exact here
      · cases step with
        | bypass => exact here
        | found messages =>
            simp only
            split
            · exact here
            · exact (ih _ w').trans here

theorem checkAttributes_registry (input : RunInput) (errors : Errors) (w : Workspace)
    (table : RuleTable) : (checkAttributes input errors w table).2.registry = w.registry := by
  induction table generalizing errors w with
  | nil => rfl
  | cons row rest ih =>
      obtain ⟨name, entries⟩ := row
      have here := checkAttribute_registry input name (input.valueOf name) [] w entries
      rw [checkAttributes]
      rcases ran : checkAttribute input name (input.valueOf name) [] w entries
        with ⟨⟨messages, ending⟩, w'⟩
      rw [ran] at here
      cases ending with
      | finished => exact (ih _ w').trans here
      | stopped | faulted => exact here

end Run

theorem run_registry (input : RunInput) (table : RuleTable) (w : Workspace) :
    (run input table w).2.registry = w.registry := by
  have here := Run.checkAttributes_registry input [] w table
  rw [run]
  rcases ran : Run.checkAttributes input [] w table with ⟨⟨errors, ending⟩, w'⟩
  rw [ran] at here
  cases ending <;> exact here

/-- Behind a run everything goes on as before. -/
theorem run_continued (input : RunInput) {table : RuleTable} (sound : table.Sound w)
    (closed : w.Closed) :
    w.ContinuedIn (run input table w).2 ∧ (run input table w).2.Closed := by
  have kept := run_kept input sound (.refl w)
  have same := run_registry input table w
  refine ⟨.ofRegistry kept same, ?_, ?_⟩
  · rw [same]
    exact fun row member => (closed.entries row member).mono kept.next
  · rw [same]
    exact fun row member token inside => (closed.cache row member token inside).mono kept.next

end FieldRules
