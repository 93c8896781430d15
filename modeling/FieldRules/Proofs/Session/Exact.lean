import FieldRules.Proofs.Session.Validators
import FieldRules.Proofs.Settings.History

/-! # What validating to the end gives

Validating data either gives them back or fails. They are given back if every attribute passes, which
says of each attribute what it says of that attribute on its own; and what is given back are the
values of the attributes that have rules. So validating what was given back changes nothing any more.
-/

namespace FieldRules

/-- The entries of some names, in the order of these names. -/
def Keyed.restricted {α : Type} (names : List String) (entries : Keyed α) : Keyed α :=
  names.filterMap fun name => (entries.get? name).map fun value => (name, value)

theorem Keyed.get?_restricted {α : Type} (names : List String) (entries : Keyed α)
    (name : String) :
    (entries.restricted names).get? name = if name ∈ names then entries.get? name else none := by
  induction names with
  | nil => rfl
  | cons first rest ih =>
      simp only [restricted] at ih
      rw [restricted, List.filterMap_cons]
      by_cases same : name = first
      · subst same
        cases found : entries.get? name <;> simp [Keyed.get?_cons, ih, found]
      · cases found : entries.get? first <;> simp [Keyed.get?_cons, ih, same]

theorem Keyed.restricted_congr {α : Type} {names : List String} {entries entries' : Keyed α}
    (same : ∀ name ∈ names, entries'.get? name = entries.get? name) :
    entries'.restricted names = entries.restricted names :=
  List.filterMap_congr fun name member => by rw [same name member]

/-! ## Runs in which everything passes -/

namespace Meeting

/-- Whether the value passes by all rules that apply. -/
def AllPass (meetings : List Meeting) : Prop := ∀ m ∈ effective meetings, m.passes = .ok true

theorem allPass_bypass {m : Meeting} (bypassed : m.bypasses = true) (rest : List Meeting) :
    AllPass (m :: rest) := by
  simp [AllPass, effective_bypass bypassed]

theorem allPass_cons {m : Meeting} (applies : m.bypasses = false) (rest : List Meeting) :
    AllPass (m :: rest) ↔ m.passes = .ok true ∧ AllPass rest := by
  simp [AllPass, effective_cons applies]

/-- An attribute is checked to its end without messages just if its value passes by all rules that
    apply, in both modes and with any overrides. -/
theorem settle_allPass (overrides : Keyed Value) (stops : Bool) {meetings : List Meeting} :
    settle overrides stops [] meetings = ([], .finished) ↔ AllPass meetings := by
  induction meetings with
  | nil => simp [settle, AllPass, effective]
  | cons m rest ih =>
      cases m.course overrides ([] : List Value).length with
      | bypass bypassed => simp [settle_bypass bypassed, allPass_bypass bypassed]
      | fault applies fault faulted =>
          simp [settle_fault applies faulted, allPass_cons applies, faulted]
      | pass applies passed =>
          rw [settle_pass (fun _ => rfl) applies passed, ih, allPass_cons applies]
          exact (and_iff_right passed).symm
      | unresolved applies failed fault faulted =>
          simp [settle_unresolved applies failed faulted, allPass_cons applies, failed]
      | fail applies failed found given =>
          have notAll : ¬AllPass (m :: rest) := by simp [allPass_cons applies, failed]
          rw [settle_fail applies failed given]
          refine iff_of_false (fun settled => ?_) notAll
          cases stops with
          | true => simp at settled
          | false =>
              -- Messages once recorded stay recorded.
              obtain ⟨_, collected⟩ := settle_finished (by simp) settled
              have none := List.prefix_nil.mp (collect_extends collected)
              exact messages_ne_nil given (by simpa using none)

end Meeting

namespace Agenda

theorem settle_allPass (overrides : Keyed Value) (stops : Bool) {agenda : Agenda} :
    agenda.settle overrides stops = ([], .finished) ↔ ∀ row ∈ agenda, Meeting.AllPass row.2 := by
  induction agenda with
  | nil => simp [settle]
  | cons row rest ih =>
      obtain ⟨name, meetings⟩ := row
      rw [List.forall_mem_cons, ← ih, ← Meeting.settle_allPass overrides stops, settle]
      rcases Meeting.settle overrides stops [] meetings with ⟨messages, ending⟩
      rcases settle overrides stops rest with ⟨errors, restEnding⟩
      cases ending with
      | finished => cases messages <;> simp [Run.record, Keyed.put]
      | stopped | faulted => simp

/-- A run is valid just if every value passes by all rules that apply. -/
theorem answer_allPass (overrides : Keyed Value) (stops : Bool) {agenda : Agenda} :
    (agenda.answer overrides stops).verdict = .ok true ↔
      ∀ row ∈ agenda, Meeting.AllPass row.2 := by
  rw [← settle_allPass overrides stops, answer]
  rcases agenda.settle overrides stops with ⟨errors, ending⟩
  cases ending with
  | finished => simp
  | stopped | faulted => simp

theorem answer_valid {overrides : Keyed Value} {stops : Bool} {agenda : Agenda}
    (valid : (agenda.answer overrides stops).verdict = .ok true) :
    agenda.answer overrides stops = ⟨[], .ok true⟩ := by
  have settled := (settle_allPass overrides stops).mpr ((answer_allPass overrides stops).mp valid)
  rw [answer, settled]
  rfl

theorem ofEncounters_congr {data data' : Keyed Value} {encounters : Keyed (List Encounter)}
    (same : ∀ name ∈ encounters.names, data'.get? name = data.get? name) :
    ofEncounters data' encounters = ofEncounters data encounters :=
  List.map_congr_left fun row member => by rw [same row.1 (Keyed.mem_names member)]

end Agenda

namespace ValidatorPlan

variable {plan : ValidatorPlan} {data overrides : Keyed Value}

/-- What a run by the plan gives is valid just if every attribute is by its own part of the plan. -/
theorem result_valid (plan : ValidatorPlan) (data overrides : Keyed Value) :
    (∃ found, plan.result data overrides = .ok found ∧ found.valid = true) ↔
      ∀ row ∈ plan.agenda data, Meeting.AllPass row.2 := by
  rw [← Agenda.answer_allPass overrides plan.stops, result, answer]
  cases (plan.agenda data |>.answer overrides plan.stops).verdict with
  | error fault => simp [Except.map]
  | ok valid => simp [Except.map]

/-- A valid result has the values of all attributes that have rules, and no errors. -/
theorem result_data {found : ValidationResult} (ran : plan.result data overrides = .ok found)
    (valid : found.valid = true) : found.data = data.restricted plan.encounters.names := by
  obtain ⟨verdict, decided, rfl⟩ := Outcome.map_ok ran
  simp only at valid
  subst valid
  have answered : plan.answer data overrides = ⟨[], .ok true⟩ := Agenda.answer_valid decided
  simp only [answered, passed]
  rfl

theorem agenda_proper (distinct : plan.encounters.names.Nodup) (data : Keyed Value) :
    (plan.agenda data).Proper where
  distinct := by
    simpa [agenda, Agenda.ofEncounters, Keyed.names, List.map_map, Function.comp_def] using distinct
  own row member m inside := by
    obtain ⟨own, _, rfl⟩ := List.mem_map.mp member
    obtain ⟨encounter, _, rfl⟩ := List.mem_map.mp inside
    rfl

/-- A result that is not valid has errors, and a message for each of them. -/
theorem result_invalid (distinct : plan.encounters.names.Nodup) {found : ValidationResult}
    (ran : plan.result data overrides = .ok found) (invalid : found.valid = false) :
    found.errors ≠ [] ∧ ∀ row ∈ found.errors, row.2 ≠ [] := by
  obtain ⟨verdict, decided, rfl⟩ := Outcome.map_ok ran
  simp only at invalid
  subst invalid
  have proper := agenda_proper distinct data
  obtain ⟨account, valid⟩ := Agenda.answer_account proper decided
  refine ⟨fun none => ?_, fun row member => account.filled row.1 row.2 member⟩
  have quiet := (account.isEmpty_iff fun m => Agenda.visited_name proper).mp
    (List.isEmpty_iff.mpr none)
  exact Bool.false_ne_true (valid.mpr quiet)

end ValidatorPlan

namespace Session

variable {s : Session} {data overrides : Keyed Value} {stops : Option Bool}

theorem validateOrFail_eq (data : Keyed Value) (sheet : RuleSheet) (overrides : Keyed Value)
    (stops : Option Bool) (s : Session) :
    validateOrFail data sheet overrides stops s =
      ((validateOnce data sheet overrides stops s).1.bind fun result =>
        if result.valid then .ok result.data else .error (.validationFailed result.errors),
        (validateOnce data sheet overrides stops s).2) := by
  simp only [validateOrFail, Task.bind_eq]
  rcases validateOnce data sheet overrides stops s with ⟨fault | result, s'⟩
  · rfl
  · cases valid : result.valid <;> simp [ValidationResult.orFail, valid, Except.bind] <;> rfl

theorem validateOrFail_ok {data : Keyed Value} {sheet : RuleSheet} {found : Keyed Value} :
    (validateOrFail data sheet overrides stops s).1 = .ok found ↔
      ∃ result, (validateOnce data sheet overrides stops s).1 = .ok result ∧
        result.valid = true ∧ result.data = found := by
  rw [validateOrFail_eq]
  cases (validateOnce data sheet overrides stops s).1 with
  | error fault => simp [Except.bind]
  | ok result => cases valid : result.valid <;> simp [Except.bind, valid]

/-- An attribute is valid on its own just if its value passes by all of its rules that apply. -/
theorem validateOnce_alone (sound : s.Sound) (closed : (s.workspace mainId).Closed)
    {name : String} {written : Written} (used : written.InUse s.rules) {default : Bool}
    (asked : (Settings.truth stopSetting (.bool false) (s.settings.item mainId)).1 = .ok default)
    {own : List Encounter} (given : written.encounters (s.workspace mainId) = .ok own) :
    (∃ alone, (validateOnce (data.restricted [name]) (.rules [(name, written)]) overrides stops
        s).1 = .ok alone ∧ alone.valid = true) ↔
      ∀ row ∈ Agenda.ofEncounters data [(name, own)], Meeting.AllPass row.2 := by
  have encounters : RuleTable.rowEncounters (s.workspace mainId) [(name, written)] =
      .ok [(name, own)] := by
    simp only [RuleTable.rowEncounters, given]
    rfl
  have planned : s.planFor mainId [(name, written)] stops =
      .ok ⟨stops.getD default, [(name, own)]⟩ := planFor_ok.mpr ⟨default, asked, encounters, rfl⟩
  have listed : (RuleSheet.rules [(name, written)]).entries = .ok [(name, written)] := rfl
  have outcome := (validateOnce_planned sound closed listed
    (by simp [Keyed.names]) (List.forall_mem_singleton.mpr used) (data.restricted [name])
    overrides stops).1
  have sameValue : Agenda.ofEncounters (data.restricted [name]) [(name, own)] =
      Agenda.ofEncounters data [(name, own)] :=
    Agenda.ofEncounters_congr fun other member => by
      rw [Keyed.get?_restricted, if_pos (by simpa [Keyed.names] using member)]
  rw [outcome, planned, ← sameValue]
  exact ValidatorPlan.result_valid _ _ _

/-! ## Rules with a plan -/

section

variable {sheet : RuleSheet} {rows : Keyed Written} {plan : ValidatorPlan} (sound : s.Sound)
  (closed : (s.workspace mainId).Closed) (listed : sheet.entries = .ok rows)
  (distinct : rows.names.Nodup) (used : ∀ row ∈ rows, row.2.InUse s.rules)
  (planned : s.planFor mainId rows stops = .ok plan)

include sound closed listed distinct used planned

theorem validateOnce_result (data overrides : Keyed Value) :
    (validateOnce data sheet overrides stops s).1 = plan.result data overrides := by
  rw [(validateOnce_planned sound closed listed distinct used data overrides stops).1, planned]
  rfl

theorem validateOrFail_returns (data overrides : Keyed Value) :
    (∃ found, (validateOrFail data sheet overrides stops s).1 = .ok found) ↔
      ∀ row ∈ rows, ∃ alone,
        (validateOnce (data.restricted [row.1]) (.rules [row]) overrides stops s).1 = .ok alone ∧
          alone.valid = true := by
  obtain ⟨default, asked, given, _⟩ := planFor_ok.mp planned
  have returned : (∃ found, (validateOrFail data sheet overrides stops s).1 = .ok found) ↔
      ∃ found, plan.result data overrides = .ok found ∧ found.valid = true := by
    simp only [validateOrFail_ok,
      validateOnce_result sound closed listed distinct used planned data overrides]
    constructor
    · rintro ⟨_, result, ran, valid, _⟩
      exact ⟨result, ran, valid⟩
    · rintro ⟨result, ran, valid⟩
      exact ⟨_, result, ran, valid, rfl⟩
  have byRows : (∀ row ∈ plan.agenda data, Meeting.AllPass row.2) ↔
      ∀ row ∈ rows, ∃ own, row.2.encounters (s.workspace mainId) = .ok own ∧
        ∀ only ∈ Agenda.ofEncounters data [(row.1, own)], Meeting.AllPass only.2 := by
    refine Iff.trans ?_ (RuleTable.rowEncounters_forall given fun entry =>
      ∀ row ∈ Agenda.ofEncounters data [entry], Meeting.AllPass row.2)
    simp only [ValidatorPlan.agenda, Agenda.ofEncounters, List.forall_mem_map,
      List.forall_mem_singleton]
  rw [returned, ValidatorPlan.result_valid, byRows]
  refine forall₂_congr fun row member => ?_
  obtain ⟨own, ownGiven, _⟩ := (RuleTable.rowEncounters_forall given fun _ => True).mp
    (fun _ _ => trivial) row member
  rw [validateOnce_alone sound closed (used row member) asked ownGiven]
  simp [ownGiven]

theorem validateOrFail_found {data overrides found : Keyed Value}
    (ran : (validateOrFail data sheet overrides stops s).1 = .ok found) :
    found = data.restricted rows.names ∧ ∀ row ∈ plan.agenda found, Meeting.AllPass row.2 := by
  obtain ⟨default, asked, given, _⟩ := planFor_ok.mp planned
  have names := RuleTable.rowEncounters_names given
  obtain ⟨result, once, valid, rfl⟩ := validateOrFail_ok.mp ran
  rw [validateOnce_result sound closed listed distinct used planned] at once
  have restricted : result.data = data.restricted rows.names :=
    names ▸ ValidatorPlan.result_data once valid
  have sameValues : plan.agenda result.data = plan.agenda data := by
    refine Agenda.ofEncounters_congr fun name member => ?_
    rw [restricted, Keyed.get?_restricted, if_pos (names ▸ member)]
  rw [sameValues]
  exact ⟨restricted, (ValidatorPlan.result_valid _ _ _).mp ⟨result, once, valid⟩⟩

/-- What validating to the end has given is given again. -/
theorem validateOrFail_again {data overrides found : Keyed Value}
    (ran : (validateOrFail data sheet overrides stops s).1 = .ok found)
    (overrides' : Keyed Value) (stops' : Option Bool) :
    (validateOrFail found sheet overrides' stops'
      (validateOrFail data sheet overrides stops s).2).1 = .ok found := by
  obtain ⟨default, asked, given, _⟩ := planFor_ok.mp planned
  have names := RuleTable.rowEncounters_names given
  obtain ⟨restricted, passed⟩ :=
    validateOrFail_found sound closed listed distinct used planned ran
  have goes := (validateOnce_planned sound closed listed distinct used data overrides stops).2
  have settings := validateOnce_settings data sheet overrides stops s
  rw [validateOrFail_eq data sheet overrides stops s]
  simp only
  -- The first run has looked the mode up, made rules and recorded codes, and no more.
  generalize (validateOnce data sheet overrides stops s).2 = s' at goes settings
  have askedAgain : (Settings.truth stopSetting (.bool false) (s'.settings.item mainId)).1 =
      (Settings.truth stopSetting (.bool false) (s.settings.item mainId)).1 := by
    rw [settings, Shelf.item_set, if_pos rfl]
    exact Settings.truth_again _ _ _
  have plannedAgain : s'.planFor mainId rows stops' =
      .ok ⟨stops'.getD default, plan.encounters⟩ := by
    rw [goes.planFor closed askedAgain used]
    exact planFor_ok.mpr ⟨default, asked, given, rfl⟩
  have usedAgain : ∀ row ∈ rows, row.2.InUse s'.rules := fun row member =>
    (used row member).mono goes.continued.kept.next
  obtain ⟨result, second, valid⟩ :=
    (ValidatorPlan.result_valid ⟨stops'.getD default, plan.encounters⟩ _ overrides').mpr passed
  have once := validateOnce_result goes.sound goes.closed listed distinct usedAgain plannedAgain
    found overrides'
  refine validateOrFail_ok.mpr ⟨result, once.trans second, valid, ?_⟩
  rw [ValidatorPlan.result_data second valid, names, restricted]
  exact Keyed.restricted_congr fun name member => by rw [Keyed.get?_restricted, if_pos member]

theorem validateOrFail_failed {data overrides : Keyed Value}
    (quiet : ∀ m ∈ (plan.agenda data).visited plan.stops, ¬m.Raises overrides)
    (unreturned : ∀ found, (validateOrFail data sheet overrides stops s).1 ≠ .ok found) :
    ∃ result, (validateOnce data sheet overrides stops s).1 = .ok result ∧ result.valid = false ∧
      (validateOrFail data sheet overrides stops s).1 = .error (.validationFailed result.errors) ∧
      result.errors ≠ [] ∧ ∀ row ∈ result.errors, row.2 ≠ [] := by
  obtain ⟨_, _, given, _⟩ := planFor_ok.mp planned
  have names := RuleTable.rowEncounters_names given
  have once := validateOnce_result sound closed listed distinct used planned data overrides
  obtain ⟨valid, decided⟩ := Agenda.answer_quiet quiet
  have ran : plan.result data overrides = .ok ⟨valid,
      plan.passed data (plan.answer data overrides).errors, (plan.answer data overrides).errors⟩ := by
    rw [ValidatorPlan.result, show (plan.answer data overrides).verdict = .ok valid from decided]
    rfl
  have invalid : valid = false := by
    refine Bool.eq_false_iff.mpr fun isValid => ?_
    exact unreturned _ (validateOrFail_ok.mpr ⟨_, once.trans ran, isValid, rfl⟩)
  subst invalid
  obtain ⟨some, filled⟩ := ValidatorPlan.result_invalid (names ▸ distinct) ran rfl
  refine ⟨_, once.trans ran, rfl, ?_, some, filled⟩
  rw [validateOrFail_eq, once.trans ran]
  rfl

end

/-- Validating to the end is exact and idempotent. If the rules are well-formed, it gives something
    back just if each attribute with rules is valid on its own. What it gives back are the values of
    these attributes that are there, in the order of the rules; validating that again gives the same,
    with any overrides and in either mode. If no rule that is visited raises, it else fails with the
    errors of the run; there are some, and each attribute among them has a message. -/
theorem validateOrFail_exact (sound : s.Sound) (closed : (s.workspace mainId).Closed)
    {sheet : RuleSheet} {rows : Keyed Written} (listed : sheet.entries = .ok rows)
    (distinct : rows.names.Nodup) (used : ∀ row ∈ rows, row.2.InUse s.rules)
    {plan : ValidatorPlan} (planned : s.planFor mainId rows stops = .ok plan)
    (data overrides : Keyed Value) :
    let run := validateOrFail data sheet overrides stops s
    ((∃ found, run.1 = .ok found) ↔ ∀ row ∈ rows, ∃ alone,
      (validateOnce (data.restricted [row.1]) (.rules [row]) overrides stops s).1 = .ok alone ∧
        alone.valid = true) ∧
    (∀ found, run.1 = .ok found → found = data.restricted rows.names ∧
      ∀ overrides' stops', (validateOrFail found sheet overrides' stops' run.2).1 = .ok found) ∧
    ((∀ m ∈ (plan.agenda data).visited plan.stops, ¬m.Raises overrides) →
      (∀ found, run.1 ≠ .ok found) → ∃ result,
        (validateOnce data sheet overrides stops s).1 = .ok result ∧ result.valid = false ∧
        run.1 = .error (.validationFailed result.errors) ∧ result.errors ≠ [] ∧
        ∀ row ∈ result.errors, row.2 ≠ []) := by
  refine ⟨validateOrFail_returns sound closed listed distinct used planned data overrides, ?_,
    validateOrFail_failed sound closed listed distinct used planned⟩
  intro found ran
  exact ⟨(validateOrFail_found sound closed listed distinct used planned ran).1,
    validateOrFail_again sound closed listed distinct used planned ran⟩

end Session

namespace Sample

def ruled : Keyed Written := [("code", .rule 1), ("nick", .list [.rule 0, .rule 1])]

def ruledPlan : ValidatorPlan where
  stops := false
  encounters := RuleTable.encounters (start.workspace 0)
    [("code", [.bound 1]), ("nick", [.bound 0, .bound 1])]

theorem start_closed : (start.workspace 0).Closed := .ofStandard rfl

theorem ruled_used : ∀ row ∈ ruled, row.2.InUse start.rules := by
  simp [ruled, Written.InUse, Written.AllInUse, start, workspace]

/-- Neither the check of a text that is too short raises nor its message. -/
theorem ruled_quiet : ∀ m ∈ (ruledPlan.agenda [("code", .str "ab")]).visited false,
    ¬m.Raises [("code.length.too_short", .str "Short")] := by
  have visited : (ruledPlan.agenda [("code", .str "ab")]).visited false =
      [⟨"code", .str "ab", .ok (.ofShared (start.workspace 0) 1)⟩] := by rfl
  have unregistered : (MetRule.ofShared (start.workspace 0) 1).identifier = none := by rfl
  rw [visited]
  refine List.forall_mem_singleton.mpr fun raises => ?_
  rcases raises with ⟨fault, raised⟩ | ⟨_, recorded, fault, unresolved⟩
  · have decided : (MetRule.ofShared (start.workspace 0) 1).passes (.str "ab") = .ok false := by rfl
    cases decided.symm.trans raised
  · have key : (MetRule.ofShared (start.workspace 0) 1).key recorded = .name "length" := by
      rw [MetRule.key, unregistered]
      rfl
    have resolved : (MetRule.ofShared (start.workspace 0) 1).messages
        [("code.length.too_short", .str "Short")] "code" (.str "ab") recorded =
          .ok [.str "Short"] := by
      rw [MetRule.messages, key]
      rfl
    cases resolved.symm.trans unresolved

end Sample

set_option maxRecDepth 4000 in
theorem Session.validateOrFail_exact_sample :
    let passing := validateOrFail [("other", .int 1), ("code", .str "abcd")] (.rules Sample.ruled) []
      none Sample.start
    let failing := validateOrFail [("code", .str "ab")] (.rules Sample.ruled)
      [("code.length.too_short", .str "Short")] none Sample.start
    passing.1 = .ok [("code", .str "abcd")] ∧
      (validateOrFail [("code", .str "abcd")] (.rules Sample.ruled) [] (some true) passing.2).1 =
        .ok [("code", .str "abcd")] ∧
      ∃ errors, failing.1 = .error (.validationFailed errors) ∧ errors ≠ [] := by
  intro passing failing
  have listed : (RuleSheet.rules Sample.ruled).entries = .ok Sample.ruled := rfl
  have planned : Sample.start.planFor mainId Sample.ruled none = .ok Sample.ruledPlan := rfl
  have exactly (data overrides : Keyed Value) :=
    validateOrFail_exact (Session.sound_of_none rfl Sample.start_closed) Sample.start_closed listed
      (by decide) Sample.ruled_used planned data overrides
  have passed : passing.1 = .ok [("code", .str "abcd")] := by rfl
  have unreturned : ∀ found, failing.1 ≠ .ok found := by
    intro found returned
    have failed : failing.1 = .error (.validationFailed [("code", [.str "Short"])]) := by rfl
    cases failed.symm.trans returned
  obtain ⟨_, again, _⟩ := exactly [("other", .int 1), ("code", .str "abcd")] []
  obtain ⟨_, _, failed⟩ := exactly [("code", .str "ab")] [("code.length.too_short", .str "Short")]
  obtain ⟨result, _, _, raised, filled, _⟩ := failed Sample.ruled_quiet unreturned
  exact ⟨passed, (again _ passed).2 [] (some true), result.errors, raised, filled⟩

end FieldRules
