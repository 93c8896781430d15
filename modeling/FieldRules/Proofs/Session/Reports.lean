import FieldRules.Proofs.Validation.Passed

/-! # What results tell of their errors

A run records no empty lists of messages, and it is valid just if it records none at all. So all
questions about the errors of a result agree: whether an attribute has any, which they are, and
which is the first. One name is the exception. Asked for the first message of the attribute whose
name is empty, a result gives the first message of all.
-/

namespace FieldRules

/-- What a message can be: what an override says, or a text. -/
def Messages.Said (overrides : Keyed Value) (message : Value) : Prop :=
  (∃ name, (name, message) ∈ overrides) ∨ ∃ text, message = .str text

namespace Errors

/-- What a run can record. No list of messages is empty. -/
structure Recorded (overrides : Keyed Value) (errors : Errors) : Prop where
  filled : ∀ row ∈ errors, row.2 ≠ []
  said : ∀ row ∈ errors, ∀ message ∈ row.2, Messages.Said overrides message

/-- The questions about an attribute have answers that agree. -/
structure AgreeOn (errors : Errors) (name : String) : Prop where
  has : errors.has name = true ↔ errors.messagesOf name ≠ []
  first : errors.first (some name) = (errors.messagesOf name).head?
  absent : errors.first (some name) = none ↔ errors.has name = false

variable {overrides : Keyed Value} {errors : Errors}

theorem earliest_eq (errors : Errors) : errors.earliest = errors.all.head? := by
  induction errors with
  | nil => rfl
  | cons row rest ih =>
      obtain ⟨name, messages⟩ := row
      cases messages with
      | nil => simpa [earliest, all] using ih
      | cons message more => simp [earliest, all]

/-- Asking for the first message of a name that is empty is asking for that of all. -/
theorem first_empty (errors : Errors) : errors.first (some "") = errors.all.head? :=
  earliest_eq errors

theorem first_named {name : String} (named : name ≠ "") (errors : Errors) :
    errors.first (some name) = (errors.messagesOf name).head? := by
  rw [first]
  exact named

namespace Recorded

theorem none (overrides : Keyed Value) : Recorded overrides [] where
  filled := List.forall_mem_nil _
  said := List.forall_mem_nil _

theorem all_eq_nil (recorded : errors.Recorded overrides) : errors.all = [] ↔ errors = [] := by
  refine ⟨fun none => ?_, fun none => none ▸ rfl⟩
  cases errors with
  | nil => rfl
  | cons row rest =>
      have empty := List.flatMap_eq_nil_iff.mp none row List.mem_cons_self
      exact absurd empty (recorded.filled row List.mem_cons_self)

theorem has_iff (recorded : errors.Recorded overrides) (name : String) :
    errors.has name = true ↔ errors.messagesOf name ≠ [] := by
  rw [Keyed.has, messagesOf]
  cases found : errors.get? name with
  | none => simp
  | some messages => simpa using recorded.filled (name, messages) (Keyed.mem_of_get? found)

/-- All questions about an attribute agree if that about its first message does. -/
theorem agreeOn_iff (recorded : errors.Recorded overrides) (name : String) :
    errors.AgreeOn name ↔ errors.first (some name) = (errors.messagesOf name).head? := by
  refine ⟨AgreeOn.first, fun first => ⟨recorded.has_iff name, first, ?_⟩⟩
  rw [first, List.head?_eq_none_iff, ← Bool.not_eq_true, recorded.has_iff, Classical.not_not]

theorem put (recorded : errors.Recorded overrides) (name : String) {messages : List Value}
    (some : messages ≠ []) (said : ∀ message ∈ messages, Messages.Said overrides message) :
    Recorded overrides (Keyed.put name messages errors) where
  filled row member := by
    rcases Keyed.mem_put member with rfl | old
    · exact some
    · exact recorded.filled row old
  said row member := by
    rcases Keyed.mem_put member with rfl | old
    · exact said
    · exact recorded.said row old

end Recorded

end Errors

/-! ## Messages -/

namespace Messages

variable {overrides : Keyed Value}

theorem selected_mem {found : Keyed Value} {address : String} {codes chosen : List Value}
    (given : selected found address codes = .ok chosen) :
    ∀ message ∈ chosen, ∃ name, (name, message) ∈ found := by
  induction codes generalizing chosen with
  | nil =>
      obtain rfl := Except.ok.inj given
      exact List.forall_mem_nil _
  | cons code rest ih =>
      obtain ⟨text, -, given⟩ := Outcome.bind_ok given
      obtain ⟨others, later, given⟩ := Outcome.bind_ok given
      obtain rfl := Except.ok.inj given
      refine List.forall_mem_append.mpr ⟨fun message member => ?_, ih later⟩
      obtain ⟨name, -, here⟩ := List.mem_filterMap.mp member
      exact ⟨name, Keyed.mem_of_get? here⟩

theorem overriding_mem {label : String} {key : RuleKey} {codes chosen : List Value}
    (given : overriding overrides label key codes = .ok chosen) :
    ∀ message ∈ chosen, ∃ name, (name, message) ∈ overrides := by
  have candidate {message : Value} : (∃ name, (name, message) ∈ candidates overrides label key) →
      ∃ name, (name, message) ∈ overrides :=
    fun ⟨name, member⟩ => ⟨name, (List.mem_filter.mp member).1⟩
  intro message member
  simp only [overriding] at given
  split at given
  · obtain rfl := Except.ok.inj given
    obtain ⟨entry, first, rfl⟩ := List.mem_map.mp member
    exact candidate ⟨entry.1, List.mem_of_mem_take first⟩
  · exact candidate (selected_mem given message member)

theorem resolve_said {label : String} {key : RuleKey} {rule : Rule} {found : List Value}
    (given : resolve overrides label key rule = .ok found) :
    ∀ message ∈ found, Said overrides message := by
  obtain ⟨chosen, selected, given⟩ := Outcome.bind_ok given
  cases chosen with
  | nil =>
      obtain ⟨text, -, given⟩ := Outcome.bind_ok given
      obtain rfl := Except.ok.inj given
      exact List.forall_mem_singleton.mpr (.inr ⟨text, rfl⟩)
  | cons first rest =>
      obtain rfl := Except.ok.inj given
      exact fun message member => .inl (overriding_mem selected message member)

end Messages

/-! ## Runs -/

namespace Run

variable {input : RunInput} {w w' : Workspace} {errors : Errors}

theorem step_said {overrides : Keyed Value} {name : String} {value : Value} {recorded : Nat}
    {entry : TableEntry} {messages : List Value}
    (ran : step overrides name value recorded entry w = (.ok (.found messages), w')) :
    ∀ message ∈ messages, Messages.Said overrides message := by
  obtain ⟨id, w₁, -, ran⟩ := Task.bind_ran ran
  obtain ⟨rule, w₂, -, ran⟩ := Task.bind_ran ran
  split at ran
  · obtain ⟨_, w₃, -, ran⟩ := Task.bind_ran ran
    cases ran
  · obtain ⟨passed, w₃, -, ran⟩ := Task.bind_ran ran
    split at ran
    · cases ran
      exact List.forall_mem_nil _
    · obtain ⟨found, w₄, resolved, ran⟩ := Task.bind_ran ran
      cases ran
      exact Messages.resolve_said (congrArg Prod.fst resolved)

/-- A check records what can be said, and something if it ends the run. -/
theorem checkAttribute_said {name : String} {value : Value} {recorded messages : List Value}
    {entries : List TableEntry} {ending : Ending}
    (said : ∀ message ∈ recorded, Messages.Said input.overrides message)
    (checked : checkAttribute input name value recorded w entries = ((messages, ending), w')) :
    (∀ message ∈ messages, Messages.Said input.overrides message) ∧
      (ending = .stopped → messages ≠ []) := by
  induction entries generalizing recorded w with
  | nil =>
      cases checked
      exact ⟨said, by simp⟩
  | cons entry rest ih =>
      rcases ran : step input.overrides name value recorded.length entry w
        with ⟨fault | (_ | found), next⟩ <;> simp only [checkAttribute, ran] at checked
      · cases checked
        exact ⟨said, by simp⟩
      · cases checked
        exact ⟨said, by simp⟩
      · have allSaid := List.forall_mem_append.mpr ⟨said, step_said ran⟩
        split at checked
        next ends =>
          cases checked
          rw [Bool.and_eq_true, Bool.not_eq_true', List.isEmpty_eq_false_iff] at ends
          exact ⟨allSaid, fun _ => ends.2⟩
        next => exact ih allSaid checked

theorem record_recorded (before : errors.Recorded input.overrides) (name : String)
    {messages : List Value}
    (said : ∀ message ∈ messages, Messages.Said input.overrides message) :
    (record errors name messages).Recorded input.overrides := by
  rw [record]
  split
  · exact before
  · rename_i some
    exact before.put name (by simpa using some) said

/-- A run that is stopped has errors. -/
theorem checkAttributes_recorded (before : errors.Recorded input.overrides) {table : RuleTable}
    {found : Errors} {ending : Ending}
    (checked : checkAttributes input errors w table = ((found, ending), w')) :
    found.Recorded input.overrides ∧ (ending = .stopped → found ≠ []) := by
  induction table generalizing errors w with
  | nil =>
      cases checked
      exact ⟨before, by simp⟩
  | cons row rest ih =>
      obtain ⟨name, entries⟩ := row
      rcases ran : checkAttribute input name (input.valueOf name) [] w entries
        with ⟨⟨messages, rowEnding⟩, next⟩
      obtain ⟨said, some⟩ := checkAttribute_said (List.forall_mem_nil _) ran
      have recorded := record_recorded before name said
      simp only [checkAttributes, ran] at checked
      cases rowEnding with
      | finished => exact ih recorded checked
      | faulted fault =>
          cases checked
          exact ⟨recorded, by simp⟩
      | stopped =>
          cases checked
          refine ⟨recorded, fun _ none => ?_⟩
          have here : Keyed.get? (record errors name messages) name = .some messages := by
            rw [record, if_neg (by simpa using some rfl), Keyed.get?_put, if_pos rfl]
          simp [none, Keyed.get?_nil] at here

end Run

/-- The errors of a run agree with its verdict. -/
theorem run_recorded (input : RunInput) (table : RuleTable) (w : Workspace) :
    (run input table w).1.errors.Recorded input.overrides ∧
      ∀ valid, (run input table w).1.verdict = .ok valid →
        valid = (run input table w).1.errors.isEmpty := by
  rcases ran : Run.checkAttributes input [] w table with ⟨⟨errors, ending⟩, w'⟩
  obtain ⟨recorded, stopped⟩ := Run.checkAttributes_recorded (.none input.overrides) ran
  simp only [run, ran]
  cases ending with
  | finished => exact ⟨recorded, fun valid returned => (Except.ok.inj returned).symm⟩
  | faulted fault => exact ⟨recorded, by simp⟩
  | stopped =>
      refine ⟨recorded, fun valid returned => ?_⟩
      obtain rfl := Except.ok.inj returned
      exact (List.isEmpty_eq_false_iff.mpr (stopped rfl)).symm

/-! ## Results -/

namespace Session

theorem result_recorded {id : Nat} {s : Session} {r : ValidationResult}
    (returned : (result id s).1 = .ok r) :
    r.errors.Recorded (s.validators.item id).overrides ∧ r.valid = r.errors.isEmpty := by
  obtain ⟨valid, ran, rfl⟩ := Outcome.map_ok ((result_eq rfl).symm.trans returned)
  obtain ⟨recorded, verdict⟩ := run_recorded
    ⟨(s.validators.item id).data, (s.validators.item id).overrides, (s.validators.item id).stops⟩
    (s.validators.item id).table (s.workspace (s.validators.item id).registry)
  exact ⟨recorded, verdict valid ran⟩

/-- What a result tells of its errors. The questions about an attribute agree, unless its name is
    empty: then the first message of all is given for its own. The first message of all is that of
    the list of all messages, and there is one just if the result is not valid. The fault of a
    result that is not valid gives the same messages as the result. And a message is a text, so that
    it is told apart from there being none, as long as the overrides are. -/
theorem result_accessors {id : Nat} {s : Session} {r : ValidationResult}
    (returned : (result id s).1 = .ok r) :
    (∀ name, r.errors.AgreeOn name ↔
      (name = "" → r.errors.all.head? = (r.errors.messagesOf "").head?)) ∧
    r.errors.first (some "") = r.errors.all.head? ∧
    r.errors.first none = r.errors.all.head? ∧
    (r.errors.first none = none ↔ r.valid = true) ∧
    (r.valid = false → ∃ errors, r.orFail = .error (.validationFailed errors) ∧
      ∀ name, Errors.first errors name = r.errors.first name) ∧
    ((∀ entry ∈ (s.validators.item id).overrides, ∃ text, entry.2 = .str text) →
      ∀ message ∈ r.errors.all, ∃ text, message = .str text) := by
  obtain ⟨recorded, valid⟩ := result_recorded returned
  refine ⟨fun name => ?_, Errors.first_empty _, Errors.earliest_eq _, ?_, fun invalid => ?_,
    fun texts message member => ?_⟩
  · rw [recorded.agreeOn_iff]
    by_cases empty : name = ""
    · subst empty
      simp [Errors.first_empty]
    · simp [Errors.first_named empty, empty]
  · rw [valid, List.isEmpty_iff, ← recorded.all_eq_nil, ← List.head?_eq_none_iff,
      ← Errors.earliest_eq]
    rfl
  · refine ⟨r.errors, ?_, fun name => rfl⟩
    rw [ValidationResult.orFail, if_neg (by simpa using invalid)]
  · obtain ⟨row, inside, member⟩ := List.mem_flatMap.mp member
    rcases recorded.said row inside message member with ⟨name, override⟩ | text
    · exact texts (name, message) override
    · exact text

set_option maxRecDepth 4000 in
theorem result_accessors_sample :
    ∃ r, (result 0 Sample.session).1 = .ok r ∧ r.errors.AgreeOn "a" ∧ r.errors.AgreeOn "b" ∧
      ¬r.errors.AgreeOn "" := by
  have returned : (result 0 Sample.session).1 =
      .ok ⟨false, [("b", .none)], [("a", [.str "The a field is required"])]⟩ := by rfl
  obtain ⟨agree, -⟩ := result_accessors returned
  refine ⟨_, returned, (agree "a").mpr (by simp), (agree "b").mpr (by simp), fun agrees => ?_⟩
  have same := (agree "").mp agrees rfl
  simp [Errors.all, Errors.messagesOf, Keyed.get?_cons, Keyed.get?_nil] at same

set_option maxRecDepth 4000 in
/-- A result gives a first message for an attribute that has no errors. -/
theorem result_accessors_differ :
    ∃ r, (result 0 Sample.session).1 = .ok r ∧ r.errors.has "" = false ∧
      r.errors.messagesOf "" = [] ∧
      r.errors.first (some "") = some (.str "The a field is required") :=
  ⟨⟨false, [("b", .none)], [("a", [.str "The a field is required"])]⟩,
    by rfl, by rfl, by rfl, by rfl⟩

end Session

end FieldRules
