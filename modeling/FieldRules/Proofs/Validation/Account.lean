import FieldRules.Proofs.Validation.Visited

/-! # What a run gives account of

A run gives account of the rules that it visits: attribute by attribute the messages of those that
fail, and the verdict that none does. The rules it visits are those that apply, in the order of the
table, and in stop mode none behind the first failure of the whole run.
-/

namespace FieldRules

namespace Agenda

variable {overrides : Keyed Value} {stops : Bool}

/-- The meetings that a run visits. -/
def visited (stops : Bool) (agenda : Agenda) : List Meeting :=
  Meeting.cut stops (agenda.flatMap fun row => Meeting.effective row.2)

/-- The failures of an attribute. -/
def failuresOf (name : String) (visited : List Meeting) : List Meeting :=
  visited.filter fun m => m.name == name && m.fails

/-- The errors are those of the rules that were visited, the attributes being those of `names`. -/
structure Account (overrides : Keyed Value) (visited : List Meeting) (names : List String)
    (errors : Errors) : Prop where
  /-- Just the attributes with a failure have errors, in their order. -/
  names : errors.names = names.filter fun name => !(failuresOf name visited).isEmpty
  /-- The errors of an attribute are the messages of its failures. -/
  messages : ∀ name found, (name, found) ∈ errors →
    Meeting.collect overrides [] (failuresOf name visited) = .ok found
  /-- No attribute has an empty list of errors. -/
  filled : ∀ name found, (name, found) ∈ errors → found ≠ []

/-- Attributes are distinct, and each has its own meetings. -/
structure Proper (agenda : Agenda) : Prop where
  distinct : agenda.names.Nodup
  own : ∀ row ∈ agenda, ∀ m ∈ row.2, m.name = row.1

theorem Proper.tail {row : String × List Meeting} {rest : Agenda}
    (proper : Proper (row :: rest)) : Proper rest :=
  ⟨(List.nodup_cons.mp proper.distinct).2,
    fun other member => proper.own other (List.mem_cons_of_mem row member)⟩

end Agenda

theorem RuleTable.Sound.proper {w : Workspace} {table : RuleTable} (sound : table.Sound w)
    (data : Keyed Value) : (table.agenda w data).Proper where
  distinct := by rw [agenda_names]; exact sound.distinct
  own row member m inside := by
    obtain ⟨tableRow, _, rfl⟩ := List.mem_map.mp member
    exact meetings_name inside

namespace Meeting

theorem cut_append (stops : Bool) (first rest : List Meeting) :
    cut stops (first ++ rest) =
      if stops && first.any fails then cut stops first else first ++ cut stops rest := by
  induction first with
  | nil => simp
  | cons m first ih =>
      by_cases failed : m.fails = true
      · cases stops <;> simp [cut, upToFailure, failed]
      · have passed := Bool.not_eq_true _ ▸ failed
        rw [List.cons_append, cut_cons passed, cut_cons passed, ih, List.any_cons, passed,
          Bool.false_or]
        split <;> rfl

theorem cut_subset (stops : Bool) (meetings : List Meeting) : cut stops meetings ⊆ meetings := by
  induction meetings with
  | nil => cases stops <;> simp [cut, upToFailure]
  | cons m rest ih =>
      by_cases failed : m.fails = true
      · cases stops <;> simp [cut, upToFailure, failed]
      · rw [cut_cons (Bool.not_eq_true _ ▸ failed)]
        exact List.cons_subset_cons m ih

/-- Cutting at the first failure keeps that failure. -/
theorem cut_any (stops : Bool) (meetings : List Meeting) :
    (cut stops meetings).any fails = meetings.any fails := by
  induction meetings with
  | nil => cases stops <;> rfl
  | cons m rest ih =>
      by_cases failed : m.fails = true
      · cases stops <;> simp [cut, upToFailure, failed]
      · rw [cut_cons (Bool.not_eq_true _ ▸ failed), List.any_cons, List.any_cons, ih]

theorem effective_subset (meetings : List Meeting) : effective meetings ⊆ meetings :=
  (List.takeWhile_sublist _).subset

end Meeting

namespace Agenda

variable {overrides : Keyed Value} {stops : Bool}

theorem visited_cons (name : String) (meetings : List Meeting) (rest : Agenda) :
    visited stops ((name, meetings) :: rest) =
      if stops && (Meeting.effective meetings).any Meeting.fails then
        Meeting.cut stops (Meeting.effective meetings)
      else Meeting.effective meetings ++ visited stops rest := by
  rw [visited, List.flatMap_cons, Meeting.cut_append]
  rfl

theorem visited_name {agenda : Agenda} (proper : agenda.Proper) {m : Meeting}
    (member : m ∈ agenda.visited stops) : m.name ∈ agenda.names := by
  obtain ⟨row, inside, found⟩ := List.mem_flatMap.mp (Meeting.cut_subset stops _ member)
  rw [proper.own row inside m (Meeting.effective_subset _ found)]
  exact List.mem_map.mpr ⟨row, inside, rfl⟩

theorem failuresOf_append (name : String) (first rest : List Meeting) :
    failuresOf name (first ++ rest) = failuresOf name first ++ failuresOf name rest :=
  List.filter_append ..

theorem failuresOf_own {name : String} {meetings : List Meeting}
    (own : ∀ m ∈ meetings, m.name = name) :
    failuresOf name meetings = meetings.filter Meeting.fails := by
  apply List.filter_congr
  intro m member
  simp [own m member]

theorem failuresOf_other {name : String} {meetings : List Meeting}
    (others : ∀ m ∈ meetings, m.name ≠ name) : failuresOf name meetings = [] := by
  simp only [failuresOf, List.filter_eq_nil_iff]
  intro m member
  simp [others m member]

theorem failuresOf_isEmpty {name : String} {visited : List Meeting} :
    (failuresOf name visited).isEmpty = true ↔ ∀ m ∈ visited, m.name = name → m.fails = false := by
  simp [failuresOf, List.filter_eq_nil_iff]

namespace Account

variable {visited : List Meeting} {names : List String} {errors : Errors}

theorem nil (names : List String) : Account overrides [] names [] where
  names := by simp [Keyed.names, failuresOf]
  messages name found member := absurd member List.not_mem_nil
  filled name found member := absurd member List.not_mem_nil

/-- Putting an attribute before others leaves their errors as they are. -/
theorem cons (rest : Account overrides visited names errors) {name : String}
    (absent : name ∉ names) (others : ∀ m ∈ visited, m.name ≠ name) {first : List Meeting}
    (own : ∀ m ∈ first, m.name = name) {found : List Value}
    (collected : Meeting.collect overrides [] (first.filter Meeting.fails) = .ok found) :
    Account overrides (first ++ visited) (name :: names)
      (Run.record [] name found ++ errors) := by
  have here : failuresOf name (first ++ visited) = first.filter Meeting.fails := by
    rw [failuresOf_append, failuresOf_own own, failuresOf_other others, List.append_nil]
  have there : ∀ other, other ≠ name →
      failuresOf other (first ++ visited) = failuresOf other visited := by
    intro other different
    have notFirst : ∀ m ∈ first, m.name ≠ other := fun m member same =>
      different (same.symm.trans (own m member))
    rw [failuresOf_append, failuresOf_other notFirst, List.nil_append]
  have some := Meeting.collect_eq_nil collected
  have inRest : ∀ other messages, (other, messages) ∈ errors → other ≠ name := by
    intro other messages member same
    have inNames := Keyed.mem_names member
    rw [rest.names] at inNames
    exact absent (same ▸ (List.mem_filter.mp inNames).1)
  have inRecord : ∀ other messages, (other, messages) ∈ Run.record [] name found →
      other = name ∧ messages = found ∧ found ≠ [] := by
    intro other messages member
    cases found with
    | nil => simp [Run.record] at member
    | cons head tail => simpa [Run.record, Keyed.put] using member
  refine ⟨?_, ?_, ?_⟩
  · have restNames : names.filter (fun other => !(failuresOf other (first ++ visited)).isEmpty) =
        errors.names := by
      rw [rest.names]
      apply List.filter_congr
      intro other member
      rw [there other fun same => absent (same ▸ member)]
    rw [List.filter_cons, here, restNames, Keyed.names, List.map_append]
    cases found with
    | nil => simp [some.mp rfl, Run.record, Keyed.names]
    | cons head tail =>
        have failed : first.filter Meeting.fails ≠ [] := fun none =>
          List.cons_ne_nil head tail (some.mpr none)
        simp [failed, Run.record, Keyed.put, Keyed.names]
  · intro other messages member
    rcases List.mem_append.mp member with recorded | old
    · obtain ⟨rfl, rfl, _⟩ := inRecord other messages recorded
      rwa [here]
    · rw [there other (inRest other messages old)]
      exact rest.messages other messages old
  · intro other messages member
    rcases List.mem_append.mp member with recorded | old
    · obtain ⟨_, rfl, filled⟩ := inRecord other messages recorded
      exact filled
    · exact rest.filled other messages old

/-- There are errors just if there are failures. -/
theorem isEmpty_iff (account : Account overrides visited names errors)
    (named : ∀ m ∈ visited, m.name ∈ names) :
    errors.isEmpty = true ↔ ∀ m ∈ visited, m.fails = false := by
  have noNames : errors = [] ↔ errors.names = [] := List.map_eq_nil_iff.symm
  rw [List.isEmpty_iff, noNames, account.names, List.filter_eq_nil_iff]
  simp only [Bool.not_eq_true', Bool.not_eq_false, failuresOf_isEmpty]
  constructor
  · intro quiet m member
    exact quiet m.name (named m member) m member rfl
  · intro quiet name _ m member _
    exact quiet m member

end Account

/-- Unless a fault ends it, an agenda comes to the errors of the rules that it visits. -/
theorem settle_account {agenda : Agenda} (proper : agenda.Proper) {errors : Errors}
    {ending : Ending} (settled : agenda.settle overrides stops = (errors, ending))
    (calm : ∀ fault, ending ≠ .faulted fault) :
    Account overrides (agenda.visited stops) agenda.names errors ∧
      (ending = .stopped → ∃ m ∈ agenda.visited stops, m.fails = true) := by
  induction agenda generalizing errors with
  | nil =>
      obtain ⟨rfl, rfl⟩ := Prod.mk.inj settled
      refine ⟨?_, by simp⟩
      cases stops <;> exact Account.nil []
  | cons row rest ih =>
      obtain ⟨name, meetings⟩ := row
      obtain ⟨absent, _⟩ := List.nodup_cons.mp proper.distinct
      have own : ∀ m ∈ Meeting.effective meetings, m.name = name := fun m member =>
        proper.own (name, meetings) List.mem_cons_self m (Meeting.effective_subset _ member)
      rcases checked : Meeting.settle overrides stops [] meetings with ⟨found, rowEnding⟩
      simp only [settle, checked] at settled
      cases rowEnding with
      | faulted fault =>
          obtain ⟨_, rfl⟩ := Prod.mk.inj settled
          exact absurd rfl (calm fault)
      | stopped =>
          obtain ⟨rfl, rfl⟩ := Prod.mk.inj settled
          obtain ⟨stop, collected⟩ := Meeting.settle_stopped (fun _ => rfl) checked
          rw [visited_cons, if_pos stop]
          have noneLater : Account overrides [] (Keyed.names rest) [] := .nil _
          have account := noneLater.cons absent (by simp)
            (fun m member => own m (Meeting.cut_subset stops _ member)) collected
          rw [List.append_nil, List.append_nil] at account
          refine ⟨account, fun _ => ?_⟩
          rw [← List.any_eq_true, Meeting.cut_any]
          exact (Bool.and_eq_true _ _ ▸ stop).2
      | finished =>
          obtain ⟨goesOn, collected⟩ := Meeting.settle_finished (fun _ => rfl) checked
          obtain ⟨rfl, rfl⟩ := Prod.mk.inj settled
          obtain ⟨restAccount, restStopped⟩ := ih proper.tail rfl
          have others : ∀ m ∈ visited stops rest, m.name ≠ name := fun m member same =>
            absent (same ▸ visited_name proper.tail member)
          rw [visited_cons, goesOn, if_neg Bool.false_ne_true]
          refine ⟨restAccount.cons absent others own collected, fun stopped => ?_⟩
          obtain ⟨m, member, failed⟩ := restStopped stopped
          exact ⟨m, List.mem_append_right _ member, failed⟩

/-- An agenda is faulted only if a rule that it visits raises. -/
theorem settle_quiet {agenda : Agenda}
    (quiet : ∀ m ∈ agenda.visited stops, ¬m.Raises overrides) (fault : Fault) :
    (agenda.settle overrides stops).2 ≠ .faulted fault := by
  induction agenda with
  | nil => simp [settle]
  | cons row rest ih =>
      obtain ⟨name, meetings⟩ := row
      have rowVisited : Meeting.cut stops (Meeting.effective meetings) ⊆
          visited stops ((name, meetings) :: rest) := by
        rw [visited_cons]
        split
        · exact List.Subset.refl _
        · exact List.subset_append_of_subset_left _ (Meeting.cut_subset stops _)
      have rowQuiet : ∀ fault, (Meeting.settle overrides stops [] meetings).2 ≠ .faulted fault :=
        Meeting.settle_quiet (fun _ => rfl) fun m member => quiet m (rowVisited member)
      rcases checked : Meeting.settle overrides stops [] meetings with ⟨found, ending⟩
      simp only [checked] at rowQuiet
      simp only [settle, checked]
      cases ending with
      | faulted other => exact absurd rfl (rowQuiet other)
      | stopped => simp
      | finished =>
          obtain ⟨goesOn, _⟩ := Meeting.settle_finished (fun _ => rfl) checked
          apply ih
          intro m member
          apply quiet m
          rw [visited_cons, goesOn, if_neg Bool.false_ne_true]
          exact List.mem_append_right _ member

theorem answer_account {agenda : Agenda} (proper : agenda.Proper) {valid : Bool}
    (returned : (agenda.answer overrides stops).verdict = .ok valid) :
    Account overrides (agenda.visited stops) agenda.names (agenda.answer overrides stops).errors ∧
      (valid = true ↔ ∀ m ∈ agenda.visited stops, m.fails = false) := by
  have named : ∀ m ∈ agenda.visited stops, m.name ∈ agenda.names := fun _ => visited_name proper
  rcases settled : agenda.settle overrides stops with ⟨errors, ending⟩
  have account := settle_account proper settled
  simp only [answer, settled] at returned ⊢
  cases ending with
  | faulted fault => simp at returned
  | stopped =>
      obtain rfl := Except.ok.inj returned
      obtain ⟨given, stopped⟩ := account fun fault => by simp
      obtain ⟨m, member, failed⟩ := stopped rfl
      refine ⟨given, by simp, fun quiet => ?_⟩
      simp [quiet m member] at failed
  | finished =>
      obtain rfl := Except.ok.inj returned
      obtain ⟨given, _⟩ := account fun fault => by simp
      exact ⟨given, given.isEmpty_iff named⟩

theorem answer_quiet {agenda : Agenda}
    (quiet : ∀ m ∈ agenda.visited stops, ¬m.Raises overrides) :
    ∃ valid, (agenda.answer overrides stops).verdict = .ok valid := by
  have calm := settle_quiet quiet
  rcases settled : agenda.settle overrides stops with ⟨errors, ending⟩
  simp only [settled] at calm
  simp only [answer, settled]
  cases ending with
  | faulted fault => exact absurd rfl (calm fault)
  | stopped => exact ⟨false, rfl⟩
  | finished => exact ⟨errors.isEmpty, rfl⟩

end Agenda

/-- A value fails a rule just if neither mark lets it pass and the check refuses it. -/
theorem Meeting.fails_iff_refused {m : Meeting} :
    m.fails = true ↔ ∃ met, m.rule = .ok met ∧ met.rule.skip = false ∧
      ¬(met.rule.emptyAllowed.isTruthy = true ∧ m.value.isEmpty = true) ∧
      (met.rule.kind.report m.value).result = .ok false := by
  rw [fails_iff]
  rcases found : m.rule with fault | met
  · simp [passes, found, Except.bind]
  · simp only [passes, found, Except.bind, MetRule.passes, Except.ok.injEq, exists_eq_left',
      ← Bool.and_eq_true]
    split
    · simp_all
    · split
      · simp_all
      · simp_all

/-- The meaning of a run. Unless a rule that it visits raises, a run returns; and whenever it
    returns, its errors are those of the rules that it visits, and it is valid just if none of
    these fails. -/
theorem run_account (input : RunInput) {table : RuleTable} {w : Workspace}
    (sound : table.Sound w) :
    let visited := (table.agenda w input.data).visited input.stops
    ((∀ m ∈ visited, ¬m.Raises input.overrides) →
      ∃ valid, (run input table w).1.verdict = .ok valid) ∧
    (∀ valid, (run input table w).1.verdict = .ok valid →
      Agenda.Account input.overrides visited (Keyed.names table) (run input table w).1.errors ∧
        (valid = true ↔ ∀ m ∈ visited, m.fails = false)) ∧
    ∀ m ∈ visited, m.fails = true ↔ ∃ met, m.rule = .ok met ∧ met.rule.skip = false ∧
      ¬(met.rule.emptyAllowed.isTruthy = true ∧ m.value.isEmpty = true) ∧
      (met.rule.kind.report m.value).result = .ok false := by
  intro visited
  rw [run_eq_answer input sound (.refl w), ← RuleTable.agenda_names w input.data table]
  exact ⟨Agenda.answer_quiet, fun valid => Agenda.answer_account (sound.proper input.data),
    fun m _ => Meeting.fails_iff_refused⟩

/-! ## A sample

Two attributes share a rule that is registered, one has a function for a rule, and one is optional
and absent.
-/

namespace Sample

/-- A function that refuses every value. -/
def refusal : Callable where
  id := 0
  name := "refusal"
  run _ := .ok (.value (.bool false))

/-- Three rules: one that makes others optional, one for a length, one for values to be there. -/
def workspace : Workspace where
  registry := { entries := [("strict", .shared 1)] }
  rules := (((Shelf.empty.add (.ofKind .sometimes)).2.add (.ofKind (.length 3 5))).2.add
    (.ofKind .required)).2

def table : RuleTable :=
  [("nick", [.bound 0, .bound 1]), ("email", [.bound 2, .bound 0, .bound 1]),
    ("code", [.bound 1, .callable refusal])]

def input : RunInput where
  data := [("code", .str "ab"), ("nick", .str "")]
  overrides := [("code.strict", .str "Too short"), ("code.1", .str "Refused")]
  stops := false

def errors : Errors :=
  [("email", [.str "The email field is required"]), ("code", [.str "Too short", .str "Refused"])]

theorem table_sound : table.Sound workspace where
  distinct := by decide
  used := by
    simp [table, TableEntry.InUse, workspace, Callable.InUse, refusal, Product.InUse]
  registered := by
    intro identifier id member
    simp [workspace] at member
    simp [member, workspace]

set_option maxRecDepth 4000 in
theorem run_errors : (run input table workspace).1 = ⟨errors, .ok false⟩ := by rfl

end Sample

theorem run_account_sample :
    Sample.table.Sound Sample.workspace ∧
      Agenda.Account Sample.input.overrides
        ((Sample.table.agenda Sample.workspace Sample.input.data).visited false)
        ["nick", "email", "code"] (run Sample.input Sample.table Sample.workspace).1.errors := by
  have returned : (run Sample.input Sample.table Sample.workspace).1.verdict = .ok false := by
    rw [Sample.run_errors]
  exact ⟨Sample.table_sound, ((run_account Sample.input Sample.table_sound).2.1 false returned).1⟩

end FieldRules
