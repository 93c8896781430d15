import FieldRules.Proofs.Validation.Agenda
import FieldRules.Proofs.Validation.Overrides

/-! # Visited rules and their messages

Of an attribute only the rules before the first that makes them optional apply, and in stop mode a
run visits no rule behind the first that fails. Here is what the meetings of one attribute come to
in these words; `settle_calm` covers both modes at once, since a run in stop mode has recorded
nothing until it stops.
-/

namespace FieldRules

namespace Meeting

variable {overrides : Keyed Value} {stops : Bool} {recorded : List Value}

/-- The meetings of an attribute that apply: those before the first rule that bypasses the rest. -/
def effective (meetings : List Meeting) : List Meeting := meetings.takeWhile fun m => !m.bypasses

/-- The meetings up to the first failure, which is the last of them. -/
def upToFailure : List Meeting → List Meeting
  | [] => []
  | m :: rest => if m.fails then [m] else m :: upToFailure rest

/-- The meetings that a run visits of those that apply. -/
def cut (stops : Bool) (meetings : List Meeting) : List Meeting :=
  if stops then upToFailure meetings else meetings

/-- The messages of failures, one failure after the other, each resolved with the number of messages
    before it. -/
def collect (overrides : Keyed Value) (recorded : List Value) :
    List Meeting → Outcome (List Value)
  | [] => .ok recorded
  | m :: rest => do collect overrides (recorded ++ (← m.messages overrides recorded.length)) rest

/-- Whether the rule cannot be found, its check faults, or its failure has no messages. -/
def Raises (overrides : Keyed Value) (m : Meeting) : Prop :=
  (∃ fault, m.passes = .error fault) ∨
    m.fails = true ∧ ∃ recorded fault, m.messages overrides recorded = .error fault

/-! ## One meeting -/

theorem fails_iff {m : Meeting} : m.fails = true ↔ m.passes = .ok false := by
  simp only [fails]
  cases m.passes with
  | error fault => simp
  | ok passed => cases passed <;> simp

/-- A failure always has a message: the rule's own, if no override is found. -/
theorem messages_ne_nil {m : Meeting} {count : Nat} {found : List Value}
    (given : m.messages overrides count = .ok found) : found ≠ [] := by
  rcases metRule : m.rule with fault | met
  · simp [messages, metRule, Except.bind] at given
  · simp only [messages, metRule, Except.bind, MetRule.messages] at given
    exact Messages.resolve_ne_nil given

/-- The ways that a meeting can go. -/
inductive Course (overrides : Keyed Value) (count : Nat) (m : Meeting) : Prop where
  | bypass (bypassed : m.bypasses = true)
  | fault (applies : m.bypasses = false) (fault : Fault) (faulted : m.passes = .error fault)
  | pass (applies : m.bypasses = false) (passed : m.passes = .ok true)
  | unresolved (applies : m.bypasses = false) (failed : m.passes = .ok false) (fault : Fault)
      (faulted : m.messages overrides count = .error fault)
  | fail (applies : m.bypasses = false) (failed : m.passes = .ok false) (found : List Value)
      (given : m.messages overrides count = .ok found)

theorem course (overrides : Keyed Value) (count : Nat) (m : Meeting) : Course overrides count m := by
  by_cases bypassed : m.bypasses = true
  · exact .bypass bypassed
  · have applies := Bool.not_eq_true _ ▸ bypassed
    rcases decided : m.passes with fault | passed
    · exact .fault applies fault decided
    · cases passed with
      | true => exact .pass applies decided
      | false =>
          rcases given : m.messages overrides count with fault | found
          · exact .unresolved applies decided fault given
          · exact .fail applies decided found given

/-! ## What is settled by the first meeting -/

theorem effective_bypass {m : Meeting} (bypassed : m.bypasses = true) (rest : List Meeting) :
    effective (m :: rest) = [] := by
  simp [effective, bypassed]

theorem effective_cons {m : Meeting} (applies : m.bypasses = false) (rest : List Meeting) :
    effective (m :: rest) = m :: effective rest := by
  simp [effective, applies]

theorem cut_cons {m : Meeting} (passed : m.fails = false) (rest : List Meeting) :
    cut stops (m :: rest) = m :: cut stops rest := by
  cases stops <;> simp [cut, upToFailure, passed]

theorem cut_failed {m : Meeting} (failed : m.fails = true) (rest : List Meeting) :
    cut true (m :: rest) = [m] := by
  simp [cut, upToFailure, failed]

/-- Without a failure there is nothing to cut. -/
theorem cut_eq_self {meetings : List Meeting} (goesOn : (stops && meetings.any fails) = false) :
    cut stops meetings = meetings := by
  cases stops with
  | false => rfl
  | true =>
      induction meetings with
      | nil => rfl
      | cons m rest ih =>
          obtain ⟨passed, others⟩ := Bool.or_eq_false_iff.mp goesOn
          rw [cut_cons passed, ih others]

theorem settle_bypass {m : Meeting} (bypassed : m.bypasses = true) (rest : List Meeting) :
    settle overrides stops recorded (m :: rest) = (recorded, .finished) := by
  simp only [settle, step, bypassed, if_true]

theorem settle_fault {m : Meeting} (applies : m.bypasses = false) {fault : Fault}
    (faulted : m.passes = .error fault) (rest : List Meeting) :
    settle overrides stops recorded (m :: rest) = (recorded, .faulted fault) := by
  simp only [settle, step, applies, faulted, Bool.false_eq_true, if_false]

/-- In stop mode the check after a rule that passes finds nothing recorded. -/
theorem settle_pass {m : Meeting} (start : stops = true → recorded = [])
    (applies : m.bypasses = false) (passed : m.passes = .ok true) (rest : List Meeting) :
    settle overrides stops recorded (m :: rest) = settle overrides stops recorded rest := by
  have goesOn : ¬(stops && !recorded.isEmpty) = true := by
    cases stops with
    | false => simp
    | true => simp [start rfl]
  simp only [settle, step, applies, passed, Bool.false_eq_true, if_false, List.append_nil, goesOn]

theorem settle_unresolved {m : Meeting} (applies : m.bypasses = false)
    (failed : m.passes = .ok false) {fault : Fault}
    (faulted : m.messages overrides recorded.length = .error fault) (rest : List Meeting) :
    settle overrides stops recorded (m :: rest) = (recorded, .faulted fault) := by
  simp only [settle, step, applies, failed, faulted, Except.map, Bool.false_eq_true, if_false]

theorem settle_fail {m : Meeting} (applies : m.bypasses = false) (failed : m.passes = .ok false)
    {found : List Value} (given : m.messages overrides recorded.length = .ok found)
    (rest : List Meeting) :
    settle overrides stops recorded (m :: rest) =
      if stops then (recorded ++ found, .stopped)
      else settle overrides stops (recorded ++ found) rest := by
  have some : (recorded ++ found).isEmpty = false := by
    simp [messages_ne_nil given]
  simp only [settle, step, applies, failed, given, Except.map, Bool.false_eq_true, if_false, some,
    Bool.not_false, Bool.and_true]

theorem collect_cons {m : Meeting} {found : List Value}
    (given : m.messages overrides recorded.length = .ok found) (rest : List Meeting) :
    collect overrides recorded (m :: rest) = collect overrides (recorded ++ found) rest := by
  simp only [collect, given]
  rfl

/-! ## What an attribute comes to -/

/-- Unless a fault ends it, an attribute comes to the messages of the failures that are visited, and
    it ends the run just if it has one in stop mode. -/
theorem settle_calm {meetings : List Meeting} {all : List Value} {ending : Ending}
    (start : stops = true → recorded = [])
    (settled : settle overrides stops recorded meetings = (all, ending))
    (calm : ∀ fault, ending ≠ .faulted fault) :
    collect overrides recorded ((cut stops (effective meetings)).filter fails) = .ok all ∧
      ending = if stops && (effective meetings).any fails then .stopped else .finished := by
  induction meetings generalizing recorded with
  | nil =>
      obtain ⟨rfl, rfl⟩ := Prod.mk.inj settled
      cases stops <;> simp [cut, effective, upToFailure, collect]
  | cons m rest ih =>
      cases m.course overrides recorded.length with
      | bypass bypassed =>
          rw [settle_bypass bypassed] at settled
          obtain ⟨rfl, rfl⟩ := Prod.mk.inj settled
          rw [effective_bypass bypassed]
          cases stops <;> simp [cut, upToFailure, collect]
      | fault applies fault faulted =>
          rw [settle_fault applies faulted] at settled
          exact absurd (Prod.mk.inj settled).2.symm (calm fault)
      | pass applies passed =>
          -- `start` is what rules out that a rule that passes ends the run.
          rw [settle_pass start applies passed] at settled
          have unfailed : m.fails = false := by simp [fails, passed]
          rw [effective_cons applies, cut_cons unfailed]
          simpa [unfailed] using ih start settled
      | unresolved applies failed fault faulted =>
          rw [settle_unresolved applies failed faulted] at settled
          exact absurd (Prod.mk.inj settled).2.symm (calm fault)
      | fail applies failed found given =>
          rw [settle_fail applies failed given] at settled
          have failure := fails_iff.mpr failed
          rw [effective_cons applies]
          cases stops with
          | true =>
              obtain ⟨rfl, rfl⟩ := Prod.mk.inj settled
              rw [cut_failed failure]
              simp [failure, collect_cons given, collect]
          | false =>
              have tail := ih (by simp) settled
              simpa [cut, failure, collect_cons given] using tail

theorem settle_finished {meetings : List Meeting} {all : List Value}
    (start : stops = true → recorded = [])
    (settled : settle overrides stops recorded meetings = (all, .finished)) :
    (stops && (effective meetings).any fails) = false ∧
      collect overrides recorded ((effective meetings).filter fails) = .ok all := by
  obtain ⟨collected, ended⟩ := settle_calm start settled fun fault => by simp
  have goesOn : (stops && (effective meetings).any fails) = false := by
    by_cases stop : (stops && (effective meetings).any fails) = true
    · simp [stop] at ended
    · exact Bool.not_eq_true _ ▸ stop
  rw [cut_eq_self goesOn] at collected
  exact ⟨goesOn, collected⟩

theorem settle_stopped {meetings : List Meeting} {all : List Value}
    (start : stops = true → recorded = [])
    (settled : settle overrides stops recorded meetings = (all, .stopped)) :
    (stops && (effective meetings).any fails) = true ∧
      collect overrides recorded ((cut stops (effective meetings)).filter fails) = .ok all := by
  obtain ⟨collected, ended⟩ := settle_calm start settled fun fault => by simp
  refine ⟨?_, collected⟩
  by_cases stop : (stops && (effective meetings).any fails) = true
  · exact stop
  · simp [stop] at ended

/-- An attribute is faulted only if a rule that is visited raises. -/
theorem settle_quiet {meetings : List Meeting} (start : stops = true → recorded = [])
    (quiet : ∀ m ∈ cut stops (effective meetings), ¬m.Raises overrides) (fault : Fault) :
    (settle overrides stops recorded meetings).2 ≠ .faulted fault := by
  induction meetings generalizing recorded with
  | nil => simp [settle]
  | cons m rest ih =>
      cases m.course overrides recorded.length with
      | bypass bypassed => simp [settle_bypass bypassed]
      | fault applies fault faulted =>
          have visited : m ∈ cut stops (effective (m :: rest)) := by
            have unfailed : m.fails = false := by simp [fails, faulted]
            simp [effective_cons applies, cut_cons unfailed]
          exact absurd (.inl ⟨fault, faulted⟩) (quiet m visited)
      | pass applies passed =>
          have unfailed : m.fails = false := by simp [fails, passed]
          rw [settle_pass start applies passed]
          rw [effective_cons applies, cut_cons unfailed] at quiet
          exact ih start fun other member => quiet other (List.mem_cons_of_mem m member)
      | unresolved applies failed fault faulted =>
          have visited : m ∈ cut stops (effective (m :: rest)) := by
            cases stops <;> simp [effective_cons applies, cut, upToFailure, fails_iff.mpr failed]
          exact absurd (.inr ⟨fails_iff.mpr failed, _, fault, faulted⟩) (quiet m visited)
      | fail applies failed found given =>
          rw [settle_fail applies failed given]
          cases stops with
          | true => simp
          | false =>
              rw [effective_cons applies] at quiet
              exact ih (by simp) fun other member => quiet other (List.mem_cons_of_mem m member)

theorem collect_extends {failures : List Meeting} {all : List Value}
    (collected : collect overrides recorded failures = .ok all) : recorded <+: all := by
  induction failures generalizing recorded with
  | nil =>
      obtain rfl := Except.ok.inj collected
      exact List.prefix_refl _
  | cons m rest ih =>
      rcases given : m.messages overrides recorded.length with fault | found
      · simp [collect, given, bind, Except.bind] at collected
      · rw [collect_cons given] at collected
        exact (List.prefix_append recorded found).trans (ih collected)

/-- There are messages just if there are failures. -/
theorem collect_eq_nil {failures : List Meeting} {all : List Value}
    (collected : collect overrides [] failures = .ok all) : all = [] ↔ failures = [] := by
  cases failures with
  | nil => simpa [collect] using Except.ok.inj collected.symm
  | cons m rest =>
      rcases given : m.messages overrides ([] : List Value).length with fault | found
      · simp only [List.length_nil] at given
        simp [collect, given, bind, Except.bind] at collected
      · rw [collect_cons given] at collected
        have some := (collect_extends collected).ne_nil (messages_ne_nil given)
        simpa using some

end Meeting

end FieldRules
