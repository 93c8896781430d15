import FieldRules.Proofs.Registry.Faults
import FieldRules.Proofs.Rule.Checks
import FieldRules.Proofs.Validation.Account

/-! # Runs that raise

A failure of a rule that a rule string makes has its messages in any case. So a run over rule
strings raises just if the check of a rule that it visits does, and what comes out is what the
first of these checks raises.
-/

namespace FieldRules

variable {overrides : Keyed Value} {stops : Bool} {fault : Fault}

/-! ## The first check that raises -/

namespace Meeting

variable {m : Meeting}

/-- What comes out of the check, if it raises. -/
def fault? (m : Meeting) : Option Fault :=
  match m.passes with
  | .ok _ => none
  | .error fault => some fault

theorem fault?_eq : m.fault? = some fault ↔ m.passes = .error fault := by
  simp only [fault?]
  cases m.passes with
  | ok passed => simp
  | error other => simp

/-- Whether a failure has messages in any case. -/
def Messaged (overrides : Keyed Value) (m : Meeting) : Prop :=
  ∀ recorded, ∃ found, m.messages overrides recorded = .ok found

/-- With messages for every failure, an attribute is faulted by the first check that raises. -/
theorem settle_faulted {meetings : List Meeting} {recorded : List Value}
    (start : stops = true → recorded = []) (messaged : ∀ m ∈ meetings, m.Messaged overrides) :
    (settle overrides stops recorded meetings).2 = .faulted fault ↔
      (cut stops (effective meetings)).findSome? fault? = some fault := by
  -- A check that raises is no failure, so that none is cut off before it.
  induction meetings generalizing recorded with
  | nil => cases stops <;> simp [settle, effective, cut, upToFailure]
  | cons m rest ih =>
      obtain ⟨first, others⟩ := List.forall_mem_cons.mp messaged
      cases m.course overrides recorded.length with
      | bypass bypassed =>
          rw [settle_bypass bypassed, effective_bypass bypassed]
          cases stops <;> simp [cut, upToFailure]
      | fault applies other faulted =>
          have unfailed : m.fails = false := by simp [fails, faulted]
          have raised : m.fault? = some other := fault?_eq.mpr faulted
          rw [settle_fault applies faulted, effective_cons applies, cut_cons unfailed]
          simp [raised]
      | pass applies passed =>
          have unfailed : m.fails = false := by simp [fails, passed]
          have calm : m.fault? = none := by simp [fault?, passed]
          rw [settle_pass start applies passed, effective_cons applies, cut_cons unfailed,
            List.findSome?_cons, calm]
          exact ih start others
      | unresolved applies failed other faulted =>
          obtain ⟨found, given⟩ := first recorded.length
          cases given.symm.trans faulted
      | fail applies failed found given =>
          have calm : m.fault? = none := by simp [fault?, failed]
          rw [settle_fail applies failed given, effective_cons applies]
          cases stops with
          | true =>
              rw [cut_failed (fails_iff.mpr failed)]
              simp [calm]
          | false =>
              have later := @ih (recorded ++ found) (by simp) others
              simpa [cut, calm] using later

end Meeting

namespace Agenda

theorem settle_faulted {agenda : Agenda}
    (messaged : ∀ row ∈ agenda, ∀ m ∈ row.2, m.Messaged overrides) :
    (agenda.settle overrides stops).2 = .faulted fault ↔
      (agenda.visited stops).findSome? Meeting.fault? = some fault := by
  -- The meetings of the first attribute come before all others, unless they end the run.
  induction agenda with
  | nil => cases stops <;> simp [settle, visited, Meeting.cut, Meeting.upToFailure]
  | cons row rest ih =>
      obtain ⟨name, meetings⟩ := row
      obtain ⟨first, others⟩ := List.forall_mem_cons.mp messaged
      have inRow (other : Fault) : (Meeting.settle overrides stops [] meetings).2 = .faulted other ↔
          (Meeting.cut stops (Meeting.effective meetings)).findSome? Meeting.fault? = some other :=
        Meeting.settle_faulted (fun _ => rfl) first
      rcases checked : Meeting.settle overrides stops [] meetings with ⟨found, ending⟩
      rw [visited_cons]
      simp only [settle, checked] at inRow ⊢
      cases ending with
      | faulted other =>
          have raised := (inRow other).mp rfl
          have same : Ending.faulted other = .faulted fault ↔ some other = some fault := by simp
          change Ending.faulted other = .faulted fault ↔ _
          split
          · rw [raised, same]
          · rename_i goesOn
            rw [Meeting.cut_eq_self (Bool.not_eq_true _ ▸ goesOn)] at raised
            rw [List.findSome?_append, raised, same]
            rfl
      | stopped =>
          obtain ⟨stop, _⟩ := Meeting.settle_stopped (fun _ => rfl) checked
          rw [if_pos stop, ← inRow fault]
      | finished =>
          obtain ⟨goesOn, _⟩ := Meeting.settle_finished (fun _ => rfl) checked
          have calm : (Meeting.effective meetings).findSome? Meeting.fault? = none := by
            rw [Meeting.cut_eq_self goesOn] at inRow
            cases raised : (Meeting.effective meetings).findSome? Meeting.fault? with
            | none => rfl
            | some other => cases (inRow other).mpr raised
          rw [goesOn, if_neg Bool.false_ne_true, List.findSome?_append, calm]
          exact ih others

theorem answer_faulted {agenda : Agenda}
    (messaged : ∀ row ∈ agenda, ∀ m ∈ row.2, m.Messaged overrides) :
    (agenda.answer overrides stops).verdict = .error fault ↔
      (agenda.visited stops).findSome? Meeting.fault? = some fault := by
  rw [← settle_faulted messaged]
  simp only [answer]
  rcases agenda.settle overrides stops with ⟨errors, ending⟩
  cases ending with
  | faulted other => simp
  | stopped => simp
  | finished => simp

end Agenda

/-! ## Rules that rule strings make -/

theorem Messages.resolve_ok {rule : Rule} {texts : List String}
    (codes : rule.violations = texts.map .str)
    (own : ∀ label, ∃ text, rule.message label = .ok text)
    (overrides : Keyed Value) (label : String) (key : RuleKey) :
    ∃ found, resolve overrides label key rule = .ok found := by
  have overridden : ∃ found, overriding overrides label key rule.violations = .ok found := by
    simp only [overriding]
    split
    · exact ⟨_, rfl⟩
    · rw [codes, selected_eq, mapM_plain]
      exact ⟨_, rfl⟩
  obtain ⟨found, given⟩ := overridden
  rw [resolve_eq, given]
  cases found with
  | nil =>
      obtain ⟨text, made⟩ := own (Text.spaced label)
      exact ⟨[.str text], by simp only [Except.bind, orOwn, made, Except.map]⟩
  | cons message rest => exact ⟨message :: rest, rfl⟩

namespace Meeting

variable {m : Meeting}

/-- Whether the rule is one that a built-in class makes from texts. -/
def IsTextual (m : Meeting) : Prop := ∃ met, m.rule = .ok met ∧ met.rule.IsTextual

/-- Whether the check raises a fault. -/
def Hazard (m : Meeting) (fault : Fault) : Prop :=
  ∃ met, m.rule = .ok met ∧ met.rule.kind.Hazard m.value fault

theorem IsTextual.messaged (textual : m.IsTextual) (overrides : Keyed Value) :
    m.Messaged overrides := by
  obtain ⟨met, found, textual⟩ := textual
  intro recorded
  obtain ⟨texts, codes⟩ := textual.kind.codes m.value
  have checked := textual.recording (met.rule.kind.report m.value).codes
  simp only [messages, found, Except.bind, MetRule.messages]
  exact Messages.resolve_ok codes checked.message overrides m.name _

/-- Neither mark of a rule comes between a value and its check. -/
theorem IsTextual.passes (textual : m.IsTextual) : m.passes = .error fault ↔ m.Hazard fault := by
  obtain ⟨met, found, textual⟩ := textual
  have asked : met.passes m.value = (met.rule.kind.report m.value).result := by
    simp [MetRule.passes, textual.skip, textual.emptyAllowed, Value.isTruthy]
  simp only [Meeting.passes, Hazard, found, Except.bind, asked, Except.ok.injEq, exists_eq_left']
  exact textual.kind.error_iff

end Meeting

/-- An identity of a rule that a built-in class makes from texts. -/
structure RuleStore.Textual (rules : RuleStore) (id : RuleId) : Prop where
  below : id < rules.next
  cleared : (rules.item id).cleared.IsTextual

variable {w w' : Workspace}

theorem RuleStore.Textual.kept {id : RuleId} (textual : RuleStore.Textual w.rules id)
    (kept : w.KeptIn w') : RuleStore.Textual w'.rules id where
  below := Nat.lt_of_lt_of_le textual.below kept.next
  cleared := by
    rw [kept.cleared id textual.below]
    exact textual.cleared

theorem Token.build_textual (closed : w.Closed) {token : Token} {c : BuiltIn}
    (made : token.factory = .ofClass (.builtIn c)) :
    Task.Keeps w token.build RuleStore.Textual := by
  have ran := Token.build_ofClass (w := w) made
  cases built : c.build (token.arguments.map .str) with
  | error cause =>
      simp only [RuleClass.build, built] at ran
      exact .ofRun ran (.refl w) closed (by simp)
  | ok rule =>
      simp only [RuleClass.build, built] at ran
      refine .ofRun ran ((Workspace.KeptIn.refl w).adding rule) (closed.adding rule) ?_
      intro id given
      obtain rfl := Except.ok.inj given
      refine ⟨Nat.lt_succ_self _, ?_⟩
      rw [Shelf.item_add, if_pos rfl]
      exact (BuiltIn.build_textual built).recording []

theorem Registry.buildTokens_textual (closed : w.Closed) {tokens : List Token}
    (builtIns : ∀ token ∈ tokens, ∃ c, token.factory = .ofClass (.builtIn c)) :
    Task.Keeps w (buildTokens tokens) fun rules ids => ∀ id ∈ ids, RuleStore.Textual rules id := by
  induction tokens generalizing w with
  | nil => exact .ofPure closed fun id member => nomatch member
  | cons token rest ih =>
      obtain ⟨⟨c, made⟩, others⟩ := List.forall_mem_cons.mp builtIns
      refine (Token.build_textual closed made).bind fun id w' _ closed' textual => ?_
      refine (ih closed' others).bind fun ids w'' kept closed'' all => ?_
      exact .ofPure closed'' (List.forall_mem_cons.mpr ⟨textual.kept kept, all⟩)

theorem Registry.parse_textual (builtIns : w.registry.OfBuiltIns) (spec : String) :
    Task.Keeps w (parse spec) fun rules ids => ∀ id ∈ ids, RuleStore.Textual rules id := by
  have reading : Task.Keeps w (tokens spec) fun _ read =>
      ∀ token ∈ read, ∃ c, token.factory = .ofClass (.builtIn c) := by
    obtain ⟨kept, closed, _⟩ := tokens_keeps builtIns.closed spec
    exact ⟨kept, closed, fun read given => builtIns.tokens given⟩
  exact reading.bind fun _ _ _ closed' made => buildTokens_textual closed' made

/-- A sheet that gives attributes rule strings. -/
def RuleSheet.ofStrings (specs : Keyed String) : RuleSheet :=
  .rules (specs.map fun row => (row.1, .value (.str row.2)))

namespace RuleTable

/-- Whether all entries of a table are bound to rules that built-in classes make from texts. -/
def IsTextual (rules : RuleStore) (table : RuleTable) : Prop :=
  ∀ row ∈ table, ∀ entry ∈ row.2, ∃ id, entry = .bound id ∧ RuleStore.Textual rules id

theorem IsTextual.kept {table : RuleTable} (textual : table.IsTextual w.rules)
    (kept : w.KeptIn w') : table.IsTextual w'.rules := by
  intro row member entry inside
  obtain ⟨id, bound, textual⟩ := textual row member entry inside
  exact ⟨id, bound, textual.kept kept⟩

theorem IsTextual.meetings {table : RuleTable} (textual : table.IsTextual w.rules)
    (data : Keyed Value) : ∀ row ∈ table.agenda w data, ∀ m ∈ row.2, m.IsTextual := by
  intro row member m inside
  obtain ⟨tableRow, tableMember, rfl⟩ := List.mem_map.mp member
  obtain ⟨entry, entryMember, rfl⟩ := List.mem_map.mp inside
  obtain ⟨id, rfl, textual⟩ := textual tableRow tableMember entry entryMember
  exact ⟨_, rfl, textual.cleared⟩

theorem attributeEntries_textual (builtIns : w.registry.OfBuiltIns) (spec : String) :
    Task.Keeps w (attributeEntries (.value (.str spec))) fun rules entries =>
      ∀ entry ∈ entries, ∃ id, entry = .bound id ∧ RuleStore.Textual rules id := by
  obtain ⟨kept, closed, textual⟩ := Registry.parse_textual builtIns spec
  refine .ofRun (attributeEntries_str spec w) kept closed ?_
  intro entries given entry member
  cases parsed : (Registry.parse spec w).1 with
  | error fault =>
      rw [parsed] at given
      cases given
  | ok ids =>
      rw [parsed] at given
      obtain rfl := Except.ok.inj given
      obtain ⟨id, inside, rfl⟩ := List.mem_map.mp member
      exact ⟨id, rfl, textual ids parsed id inside⟩

theorem ofEntries_textual {specs : Keyed String} (builtIns : w.registry.OfBuiltIns) :
    Task.Keeps w (ofEntries (specs.map fun row => (row.1, .value (.str row.2))))
      fun rules table => table.IsTextual rules := by
  induction specs generalizing w with
  | nil => exact .ofPure builtIns.closed fun row member => nomatch member
  | cons row rest ih =>
      obtain ⟨name, spec⟩ := row
      have own := attributeEntries_textual builtIns spec
      refine own.bindRun fun entries w₁ ran => ?_
      have first := own.given entries
      rw [ran] at first
      -- The registry has read one rule string, and reads the next one as one of built-in rules.
      have builtIns₁ : w₁.registry.OfBuiltIns := by
        obtain ⟨_, rfl⟩ := Prod.mk.inj ((attributeEntries_str spec w).symm.trans ran)
        exact Registry.parse_builtIns builtIns spec
      refine (ih builtIns₁).bind fun table w₂ kept closed all => ?_
      refine .ofPure closed (List.forall_mem_cons.mpr ⟨?_, all⟩)
      intro entry member
      obtain ⟨id, bound, textual⟩ := first rfl entry member
      exact ⟨id, bound, textual.kept kept⟩

theorem ofStrings_entries (specs : Keyed String) : (RuleSheet.ofStrings specs).entries =
    .ok (specs.map fun row => (row.1, .value (.str row.2))) := rfl

theorem ofStrings_sound (builtIns : w.registry.OfBuiltIns) {specs : Keyed String}
    (distinct : specs.names.Nodup) {table : RuleTable}
    (made : (ofSheet (.ofStrings specs) w).1 = .ok table)
    (kept : (ofSheet (.ofStrings specs) w).2.KeptIn w') : table.Sound w' := by
  refine ofSheet_sound builtIns.closed (ofStrings_entries specs) ?_ ?_ made kept
  · simpa only [Keyed.names, List.map_map, Function.comp_def] using distinct
  · intro row member
    obtain ⟨spec, _, rfl⟩ := List.mem_map.mp member
    trivial

theorem ofStrings_textual (builtIns : w.registry.OfBuiltIns) {specs : Keyed String}
    {table : RuleTable} (made : (ofSheet (.ofStrings specs) w).1 = .ok table)
    (kept : (ofSheet (.ofStrings specs) w).2.KeptIn w') : table.IsTextual w'.rules := by
  rw [ofSheet_listed (ofStrings_entries specs)] at made kept
  exact ((ofEntries_textual builtIns).given table made).kept kept

end RuleTable

theorem Rule.IsTextual.check {rule : Rule} (textual : rule.IsTextual) (codes : List Value)
    (value : Value) :
    let checked := ({ rule with violations := codes }.check value).1
    ((∃ valid, checked = .ok valid) ↔ ∀ fault, ¬rule.kind.Hazard value fault) ∧
      ∀ fault, checked = .error fault ↔ rule.kind.Hazard value fault := by
  intro checked
  have raises (fault : Fault) : checked = .error fault ↔ rule.kind.Hazard value fault :=
    textual.kind.error_iff
  refine ⟨?_, raises⟩
  simp only [← raises]
  cases checked with
  | ok valid => simp
  | error fault => simp

/-- The first check that raises ends a run over rule strings. -/
theorem Agenda.answer_hazards {agenda : Agenda}
    (textual : ∀ row ∈ agenda, ∀ m ∈ row.2, m.IsTextual) :
    let visited := agenda.visited stops
    let verdict := (agenda.answer overrides stops).verdict
    ((∃ valid, verdict = .ok valid) ↔ ∀ m ∈ visited, ∀ fault, ¬m.Hazard fault) ∧
      ∀ fault, verdict = .error fault ↔ ∃ before m behind, visited = before ++ m :: behind ∧
        m.Hazard fault ∧ ∀ earlier ∈ before, ∀ other, ¬earlier.Hazard other := by
  intro visited verdict
  have visitedTextual : ∀ m ∈ visited, m.IsTextual := by
    intro m member
    obtain ⟨row, inside, found⟩ := List.mem_flatMap.mp (Meeting.cut_subset stops _ member)
    exact textual row inside m (Meeting.effective_subset _ found)
  have raised : ∀ m ∈ visited, ∀ fault, m.fault? = some fault ↔ m.Hazard fault :=
    fun m member fault => Meeting.fault?_eq.trans (visitedTextual m member).passes
  have calm : ∀ m ∈ visited, m.fault? = none ↔ ∀ fault, ¬m.Hazard fault := by
    intro m member
    simp only [← raised m member]
    cases m.fault? with
    | none => simp
    | some fault => simp
  have faulted (fault : Fault) : verdict = .error fault ↔
      visited.findSome? Meeting.fault? = some fault :=
    Agenda.answer_faulted fun row inside m member =>
      (textual row inside m member).messaged overrides
  constructor
  · have returned : (∃ valid, verdict = .ok valid) ↔ visited.findSome? Meeting.fault? = none := by
      cases same : verdict with
      | ok valid =>
          cases found : visited.findSome? Meeting.fault? with
          | none => simp
          | some fault => cases same.symm.trans ((faulted fault).mpr found)
      | error fault => simp [(faulted fault).mp same]
    rw [returned, List.findSome?_eq_none_iff]
    exact forall₂_congr calm
  · intro fault
    rw [faulted, List.findSome?_eq_some_iff]
    constructor
    · rintro ⟨before, m, behind, split, found, none⟩
      have inside : ∀ other ∈ before ++ m :: behind, other ∈ visited := by
        intro other member
        rwa [split]
      refine ⟨before, m, behind, split, (raised m (inside m (by simp)) fault).mp found, ?_⟩
      intro earlier member
      exact (calm earlier (inside earlier (by simp [member]))).mp (none earlier member)
    · rintro ⟨before, m, behind, split, hazard, none⟩
      have inside : ∀ other ∈ before ++ m :: behind, other ∈ visited := by
        intro other member
        rwa [split]
      refine ⟨before, m, behind, split, (raised m (inside m (by simp)) fault).mpr hazard, ?_⟩
      intro earlier member
      exact (calm earlier (inside earlier (by simp [member]))).mpr (none earlier member)

/-- When checks raise. Let a built-in class make a rule from texts. Its check of a value decides,
whatever was recorded before, unless the value is a hazard: for JSON a text in which too many
digits are reported, and these stand in it in one row; for dates any text, if the format asks for
a directive twice. So a run over rule strings returns just if it visits no hazard, with whatever
data and overrides, and else it raises what the first one does. -/
theorem run_hazards (builtIns : w.registry.OfBuiltIns) {specs : Keyed String}
    (distinct : specs.names.Nodup) {table : RuleTable}
    (made : (RuleTable.ofSheet (.ofStrings specs) w).1 = .ok table)
    (kept : (RuleTable.ofSheet (.ofStrings specs) w).2.KeptIn w') (input : RunInput) :
    let visited := (table.agenda w' input.data).visited input.stops
    let verdict := (run input table w').1.verdict
    (∀ (c : BuiltIn) (texts : List String) (rule : Rule), c.build (texts.map .str) = .ok rule →
      ∀ (codes : List Value) (value : Value),
        let checked := ({ rule with violations := codes }.check value).1
        ((∃ valid, checked = .ok valid) ↔ ∀ fault, ¬rule.kind.Hazard value fault) ∧
          ∀ fault, checked = .error fault ↔ rule.kind.Hazard value fault) ∧
    (∀ value fault, RuleKind.Hazard .json value fault → ∃ text count, value = .str text ∧
      fault = .tooManyDigits count ∧ Number.digitLimit < count ∧ Json.HasRow text.toList count) ∧
    (∀ row : List Char, (∀ c ∈ row, Text.isAsciiDigit c = true) → row.head? ≠ some '0' →
      Number.digitLimit < row.length →
      RuleKind.Hazard .json (.str (String.ofList row)) (.tooManyDigits row.length)) ∧
    ((∃ valid, verdict = .ok valid) ↔ ∀ m ∈ visited, ∀ fault, ¬m.Hazard fault) ∧
    ∀ fault, verdict = .error fault ↔ ∃ before m behind, visited = before ++ m :: behind ∧
      m.Hazard fault ∧ ∀ earlier ∈ before, ∀ other, ¬earlier.Hazard other := by
  intro visited verdict
  refine ⟨?checks, ?rows, ?long, ?runs⟩
  case checks =>
    intro c texts rule built codes value
    exact (BuiltIn.build_textual built).check codes value
  case rows =>
    intro value fault hazard
    cases hazard with
    | @json text count long =>
        obtain ⟨beyond, row⟩ := Json.read_tooManyDigits long
        exact ⟨text, count, rfl, rfl, beyond, row⟩
  case long =>
    intro row digits first beyond
    exact .json (Json.read_long digits first beyond)
  case runs =>
    have same : verdict =
        ((table.agenda w' input.data).answer input.overrides input.stops).verdict := by
      rw [← run_eq_answer input (RuleTable.ofStrings_sound builtIns distinct made kept) (.refl w')]
    rw [same]
    exact Agenda.answer_hazards
      ((RuleTable.ofStrings_textual builtIns made kept).meetings input.data)

namespace Sample

/-- The workspace in which a table has been made of a rule for dates that asks for the day twice. -/
def dated : Workspace where
  registry := { Registry.standard with
    cache := [("date:%d%d", [⟨"date", ["%d%d"], .ofClass (.builtIn .date)⟩])]
    misses := 1 }
  rules := (Shelf.empty.add (.ofKind (.date (.str "%d%d")))).2
  events := [.parsed "date:%d%d" 1]

theorem dated_made : RuleTable.ofSheet (.ofStrings [("when", "date:%d%d")])
    { registry := .standard } = (.ok [("when", [.bound 0])], dated) := by
  have read : Registry.tokens "date:%d%d" { registry := .standard } =
      (.ok [⟨"date", ["%d%d"], .ofClass (.builtIn .date)⟩], { dated with rules := .empty }) := rfl
  have built : Registry.buildTokens [⟨"date", ["%d%d"], .ofClass (.builtIn .date)⟩]
      { dated with rules := .empty } = (.ok [0], dated) := rfl
  have parsed : Registry.parse "date:%d%d" { registry := .standard } = (.ok [0], dated) := by
    simp only [Registry.parse, Task.bind_eq, read, built]
  rw [RuleTable.ofSheet_listed (RuleTable.ofStrings_entries _)]
  simp only [List.map_cons, List.map_nil, RuleTable.ofEntries, Task.bind_eq,
    RuleTable.attributeEntries_str, parsed]
  rfl

end Sample

theorem run_hazards_sample :
    let ran (value : Value) :=
      run ⟨[("when", value)], [], false⟩ [("when", [.bound 0])] Sample.dated
    RuleTable.ofSheet (.ofStrings [("when", "date:%d%d")]) { registry := .standard } =
        (.ok [("when", [.bound 0])], Sample.dated) ∧
      (ran (.str "11")).1.verdict = .error .repeatedDirective ∧
      ∃ valid, (ran (.int 11)).1.verdict = .ok valid := by
  intro ran
  have made : (RuleTable.ofSheet (.ofStrings [("when", "date:%d%d")]) { registry := .standard }).1 =
      .ok [("when", [.bound 0])] := by rw [Sample.dated_made]
  have kept : (RuleTable.ofSheet (.ofStrings [("when", "date:%d%d")])
      { registry := .standard }).2.KeptIn Sample.dated := by
    rw [Sample.dated_made]
    exact .refl Sample.dated
  have runs (value : Value) := (run_hazards .standard (by simp [Keyed.names]) made kept
    ⟨[("when", value)], [], false⟩).2.2.2
  let met : MetRule := ⟨.ofKind (.date (.str "%d%d")), none⟩
  have visited (value : Value) : (RuleTable.agenda Sample.dated [("when", value)]
      [("when", [.bound 0])]).visited false = [⟨"when", value, .ok met⟩] := rfl
  refine ⟨Sample.dated_made, ?_, ?_⟩
  · have asks : Calendar.FormatPiece.Asks "%d%d".toList [.day, .day] :=
      @Calendar.FormatPiece.Asks.directive 'd' [.field .day] _ _ rfl
        (@Calendar.FormatPiece.Asks.directive 'd' [.field .day] _ _ rfl .nil)
    have hazard : RuleKind.Hazard (.date (.str "%d%d")) (.str "11") .repeatedDirective :=
      .date asks (by decide) "11"
    exact ((runs (.str "11")).2 _).mpr ⟨[], _, [], visited _, ⟨met, rfl, hazard⟩, by simp⟩
  · refine (runs (.int 11)).1.mpr ?_
    intro m member fault hazard
    rw [visited, List.mem_singleton] at member
    subst member
    obtain ⟨_, _, hazard⟩ := hazard
    obtain ⟨text, same⟩ := hazard.text
    cases same

theorem RuleKind.Hazard.ones {count : Nat} (beyond : Number.digitLimit < count) :
    RuleKind.Hazard .json (.str (String.ofList (List.replicate count '1')))
      (.tooManyDigits count) :=
  .json (Json.read_ones beyond)

/-- Checks that raise: by a format that asks for the day twice, and of a number with too many
digits. -/
theorem check_raises :
    (∃ rule, BuiltIn.build .date [.str "%d%d"] = .ok rule ∧
      (rule.check (.str "11")).1 = .error .repeatedDirective) ∧
    ∃ rule, BuiltIn.build .json [] = .ok rule ∧
      (rule.check (.str (String.ofList (List.replicate 4301 '1')))).1 =
        .error (.tooManyDigits 4301) := by
  have textual : RuleKind.IsTextual .json := trivial
  have raises (value : Value) (fault : Fault) (hazard : RuleKind.Hazard .json value fault) :
      ((Rule.ofKind .json).check value).1 = .error fault := textual.error_iff.mpr hazard
  refine ⟨⟨_, rfl, rfl⟩, .ofKind .json, rfl, ?_⟩
  apply raises
  exact .ones (by decide)

end FieldRules
