import FieldRules.Proofs.Session.Loggers

/-! # Handlers of loggers

The loggers that are given out share one list of handlers, and configuring says what is on it.
Nothing else does, but for one case: a list without handlers counts as one that nobody has
configured, and is given a handler when a logger is introduced. `configured_handlers` says that this
is the only case, and what becomes of messages. -/

namespace FieldRules

namespace Logging

variable {start logging logging' : Logging} {held held' handlers : List Nat} {use : LoggingUse}

/-- What is on the shared list since it was configured. -/
structure Handled (handlers : List Nat) (start logging : Logging) : Prop where
  next : start.handlers.next ≤ logging.handlers.next
  known : start.known <+: logging.known
  kept : handlers ≠ [] ∨ logging.known = start.known → logging.lists.item sharedList = handlers
  filled : handlers = [] → logging.known ≠ start.known →
    ∃ handler, start.handlers.next ≤ handler ∧ logging.lists.item sharedList = [handler]

theorem Handled.same (handled : Handled handlers start logging)
    (next : logging.handlers.next ≤ logging'.handlers.next) (known : logging'.known = logging.known)
    (list : logging'.lists.item sharedList = logging.lists.item sharedList) :
    Handled handlers start logging' where
  next := Nat.le_trans handled.next next
  known := known ▸ handled.known
  kept := by rw [known, list]; exact handled.kept
  filled := by rw [known, list]; exact handled.filled

/-- A list that has handlers is left as it is when a logger is introduced, and one that has none
    gets a new one. -/
theorem Handled.introduced (handled : Handled handlers start logging) {name : String}
    (unknown : logging.known.get? name = none) (level : LogLevel) (format : Value) :
    Handled handlers start (logging.introduce name level format).2 := by
  have known : (logging.introduce name level format).2.known =
      logging.known ++ [(name, logging.loggers.next)] := by
    rw [introduce_known, Keyed.put_of_not_mem (Keyed.get?_eq_none.mp unknown)]
  -- There never are fewer names, so from now on there are more than at the start.
  have more : (logging.introduce name level format).2.known ≠ start.known := by
    intro same
    have longer := congrArg List.length (known.symm.trans same)
    have shorter := handled.known.length_le
    simp only [List.length_append, List.length_singleton] at longer
    omega
  have kept (present : logging.lists.item sharedList ≠ []) :
      (logging.introduce name level format).2.lists.item sharedList =
        logging.lists.item sharedList := by
    rw [introduce_lists, if_neg (by simpa using present)]
  constructor
  · exact Nat.le_trans handled.next (introduce_next ..)
  · rw [known]
    exact handled.known.trans (List.prefix_append _ _)
  · intro settled
    cases settled with
    | inl some =>
        have before := handled.kept (.inl some)
        rw [kept (before ▸ some), before]
    | inr same => exact absurd same more
  · intro none _
    -- Only the first new name finds the list empty, and fills it.
    by_cases first : logging.known = start.known
    · have empty : logging.lists.item sharedList = [] := (handled.kept (.inr first)).trans none
      refine ⟨logging.handlers.next, handled.next, ?_⟩
      rw [introduce_lists, empty]
      rfl
    · obtain ⟨handler, new, list⟩ := handled.filled none first
      refine ⟨handler, new, ?_⟩
      rw [kept (by simp [list]), list]

theorem Handled.after (handled : Handled handlers start logging) (sound : logging.Sound held)
    (quiet : ¬ use.ChangesLists) (change : Change logging held use logging' held') :
    Handled handlers start logging' := by
  cases change with
  | same same => exact handled.same same.next same.known (by rw [same.lists])
  | known asked found =>
      cases asked with
      | none => exact handled
      | some level => exact handled.same (Nat.le_refl _) rfl rfl
  | introduced format unknown decided => exact handled.introduced unknown _ format
  | derived parent context => exact handled.same (Nat.le_refl _) rfl rfl
  | configured => exact absurd trivial quiet
  | added name level handlers =>
      -- The list of the new logger is not the shared one, which was there before.
      have old : sharedList ≠ logging.lists.next := Nat.ne_of_lt sound.list
      exact handled.same (Nat.le_refl _) rfl (if_neg old)
  | listed changes next => exact absurd changes quiet

end Logging

namespace Session

open Logging LoggingUse

variable {s : Session} {held handlers : List Nat} {later : List LoggingUse}

theorem after_handled {start : Logging} (sound : s.logging.Sound held)
    (handled : Handled handlers start s.logging) (quiet : ∀ use ∈ later, ¬ use.ChangesLists) :
    Handled handlers start (after s later).logging := by
  let kept (s : Session) (held : List Nat) : Prop :=
    s.logging.Sound held ∧ Handled handlers start s.logging
  have every : kept (after s later) (obtained s held later) := by
    apply after_invariant
    · intro use member s held before
      have change := perform_change use s held
      exact ⟨before.1.after change, before.2.after before.1 (quiet use member) change⟩
    · exact ⟨sound, handled⟩
  exact every.2

/-- Configuring decides the handlers of all loggers that are asked for by name, before it or after,
    and of all that are derived from them: they have the configured handlers until these are
    changed, if there are any or no name is new. Each of the handlers takes every message that
    reaches the level of its logger exactly once, in order and whatever the others do with it, and
    no other handler does; and whether logging a message raises is not a matter of handlers.
    Configuring no handlers is undone by the first logger under a new name, with which they all get
    a handler that was not there before. -/
theorem configured_handlers (initial : s.logging.IsInitial) (before : List LoggingUse)
    (level : LogLevel) (format : Value) (distinct : handlers.Nodup) (stream : Option Nat)
    (quiet : ∀ use ∈ later, ¬ use.ChangesLists) :
    let earlier := obtained s s.logging.knownIds before
    let s₁ := (configure level format (some handlers) stream).perform (after s before)
    let now := after s₁ later
    let decided := handlers ≠ [] ∨ now.logging.known = s₁.logging.known
    (∀ id ∈ obtained s₁ earlier later,
      (now.logging.handlersOf (now.logging.loggers.item id) = handlers ↔ decided)) ∧
    (¬ decided → ∃ handler, s₁.logging.handlers.next ≤ handler ∧
      ∀ id ∈ obtained s₁ earlier later,
        now.logging.handlersOf (now.logging.loggers.item id) = [handler]) ∧
    (decided → ∀ id ∈ obtained s₁ earlier later, ∀ time l message context fault,
      let record := now.logging.recordOf time id l message context fault
      let logged := now.logging.log time id l message context fault
      if now.logging.passes id l then
        logged = now.logging.offerAll record handlers ∧
          OfferedToAll now.logging record handlers logged
      else logged = now.logging) ∧
    (∀ id l message context fault, Accepted context →
      logMessage id l message context fault now =
        (.ok (), { now with logging := now.logging.log now.now id l message context fault })) ∧
    ∀ id l message context fault (s' : Session),
      (logMessage id l message context fault now).1 =
        (logMessage id l message context fault s').1 := by
  intro earlier s₁ now decided
  have sound : s₁.logging.Sound earlier := by
    have change :=
      perform_change (configure level format (some handlers) stream) (after s before) earlier
    simpa [gives, asks] using (after_sound initial.sound before).after change
  have handled : Handled handlers s₁.logging now.logging := by
    apply after_handled sound _ quiet
    exact ⟨Nat.le_refl _, List.prefix_rfl, fun _ => rfl, fun _ more => absurd rfl more⟩
  have shared (id : Nat) (given : id ∈ obtained s₁ earlier later) :
      now.logging.handlersOf (now.logging.loggers.item id) = now.logging.lists.item sharedList := by
    rw [handlersOf, ((after_sound sound later).shares id given).list]
  have filled (undecided : ¬ decided) : ∃ handler, s₁.logging.handlers.next ≤ handler ∧
      now.logging.lists.item sharedList = [handler] := by
    obtain ⟨none, more⟩ := not_or.mp undecided
    exact handled.filled (Classical.not_not.mp none) more
  refine ⟨?_, ?_, ?_, ?_, ?_⟩
  · intro id given
    rw [shared id given]
    constructor
    · intro same
      apply Classical.byContradiction
      intro undecided
      obtain ⟨handler, -, list⟩ := filled undecided
      have none := Classical.not_not.mp (not_or.mp undecided).1
      simp [list, none] at same
    · exact handled.kept
  · intro undecided
    obtain ⟨handler, new, list⟩ := filled undecided
    exact ⟨handler, new, fun id given => (shared id given).trans list⟩
  · intro settled id given time l message context fault record logged
    have logs : logged = _ := log_eq now.logging time id l message context fault
    rw [shared id given, handled.kept settled] at logs
    split
    next passes =>
      rw [if_pos passes] at logs
      rw [logs]
      exact ⟨rfl, offerAll_offered distinct now.logging record⟩
    next blocked => rwa [if_neg blocked] at logs
  · intro id l message context fault accepted
    exact logMessage_accepted accepted id l message fault now
  · intro id l message context fault s'
    exact logMessage_outcome id l message context fault now s'

end Session

namespace Sample

open LoggingUse

/-- Two handlers, one of which always fails. -/
def twoHandlers : List LoggingUse :=
  [addHandler { output := .broken }, addHandler { output := .memory }, ask "app" none,
    derive 3 [("part", .str "reader")]]

/-- A logger under a new name, and one that is derived from an old one. -/
def moreLoggers : List LoggingUse := [ask "late" none, derive 4 []]

end Sample

open Logging LoggingUse in
theorem Session.configured_handlers_sample :
    let s₁ := (configure .debug (.str "text") (some [0, 1]) none).perform
      (after {} Sample.twoHandlers)
    let now := after s₁ Sample.moreLoggers
    ∀ id ∈ [0, 1, 2, 3, 4, 5, 6], ∀ time message,
      let record := now.logging.recordOf time id .error message [] none
      OfferedToAll now.logging record [0, 1] (now.logging.log time id .error message [] none) := by
  intro s₁ now id given time message record
  have quiet : ∀ use ∈ Sample.moreLoggers, ¬ use.ChangesLists := by
    simp [Sample.moreLoggers, ChangesLists]
  have distinct : [0, 1].Nodup := by decide
  obtain ⟨-, -, logged, -⟩ :=
    configured_handlers (s := {}) ⟨[], .warning, rfl⟩ Sample.twoHandlers .debug (.str "text") distinct
      none quiet
  have every : ∀ id ∈ [0, 1, 2, 3, 4, 5, 6],
      id ∈ obtained s₁ (obtained {} ({} : Session).logging.knownIds Sample.twoHandlers)
          Sample.moreLoggers ∧
        now.logging.passes id .error = true := by decide +kernel
  obtain ⟨handed, passes⟩ := every id given
  have offered := logged (.inl (by decide)) id handed time .error message [] none
  rw [if_pos passes] at offered
  exact offered.2

/-- Configuring no handlers is undone by the first logger under a new name. -/
theorem Session.handlers_come_back :
    let s₁ := (LoggingUse.configure .warning (.str "text") (some []) none).perform {}
    let now := LoggingUse.after s₁ [.ask "new" none]
    3 ∈ LoggingUse.obtained s₁ s₁.logging.knownIds [.ask "new" none] ∧
      now.logging.handlersOf (now.logging.loggers.item 3) = [0] := by
  decide +kernel

end FieldRules
