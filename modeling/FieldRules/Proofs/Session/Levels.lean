import FieldRules.Proofs.Session.Loggers

/-! # Levels of loggers

A logger has its level to itself: it is given one when it is introduced, and a derived logger begins
with that of the logger it comes from. Configuring sets the levels of the loggers that names lead
to. The loggers that have been derived by then are left behind, and so are those that will be
derived from them; `configured_level` says of which loggers the configured level is true. -/

namespace FieldRules

namespace Logging

variable {logging logging' : Logging} {held held' : List Nat} {use : LoggingUse} {wanted : LogLevel}

/-- Whether a level is configured, and that of all loggers that were given out. -/
structure Levelled (logging : Logging) (held : List Nat) (wanted : LogLevel) : Prop where
  sound : logging.Sound held
  configured : logging.level = some wanted
  items : ∀ id ∈ held, (logging.loggers.item id).level = wanted

theorem Change.level (change : Change logging held use logging' held') (steady : ¬ use.SetsLevels) :
    logging'.level = logging.level := by
  cases change with
  | same same => exact same.level
  | known asked found => cases asked <;> rfl
  | introduced format unknown decided => exact introduce_level ..
  | derived | added | listed => rfl
  | configured => exact absurd trivial steady

/-- Loggers that are given out while no level is set begin with the configured one. -/
theorem Levelled.after (levelled : logging.Levelled held wanted) (steady : ¬ use.SetsLevels)
    (change : Change logging held use logging' held') : logging'.Levelled held' wanted where
  sound := levelled.sound.after change
  configured := (change.level steady).trans levelled.configured
  items id given := by
    have kept (id : Nat) (before : id ∈ held) : (logging'.loggers.item id).level = wanted := by
      have existing := (levelled.sound.shares id before).existing
      exact ((change.item existing).level steady).trans (levelled.items id before)
    cases change.given given with
    | inl before => exact kept id before
    | inr rest =>
        cases rest with
        | inl known => exact kept id (levelled.sound.known id known)
        | inr new =>
            obtain ⟨-, -, isNew⟩ := new
            generalize logging'.loggers.item id = logger at isNew ⊢
            cases isNew with
            | @introduced name asked level decided =>
                cases asked with
                | none => exact decided wanted levelled.configured
                | some level => exact absurd rfl steady
            | derived parentGiven more context => exact levelled.items _ parentGiven

end Logging

namespace Session

open Logging LoggingUse

variable {s : Session} {held : List Nat} {wanted : LogLevel} {later : List LoggingUse}

theorem after_levelled (levelled : s.logging.Levelled held wanted)
    (steady : ∀ use ∈ later, ¬ use.SetsLevels) :
    (after s later).logging.Levelled (obtained s held later) wanted :=
  after_invariant (P := fun s held => s.logging.Levelled held wanted)
    (fun use member s held levelled =>
      levelled.after (steady use member) (perform_change use s held)) levelled

/-- A logger keeps its level while no level is set. -/
theorem after_level (steady : ∀ use ∈ later, ¬ use.SetsLevels) {id : Nat}
    (existing : id < s.logging.loggers.next) :
    ((after s later).logging.loggers.item id).level = (s.logging.loggers.item id).level := by
  let kept (s' : Session) (_ : List Nat) : Prop :=
    id < s'.logging.loggers.next ∧
      (s'.logging.loggers.item id).level = (s.logging.loggers.item id).level
  have every : kept (after s later) (obtained s [] later) := by
    apply after_invariant
    · intro use member s' held before
      have change := perform_change use s' held
      constructor
      · exact Nat.lt_of_lt_of_le before.1 change.next
      · exact ((change.item before.1).level (steady use member)).trans before.2
    · exact ⟨existing, rfl⟩
  exact every.2

theorem obtained_subset (history : List LoggingUse) {id : Nat} (before : id ∈ held) :
    id ∈ obtained s held history :=
  after_invariant (P := fun _ held => id ∈ held)
    (fun _ _ _ _ before => List.mem_append_left _ before) before

/-- What configuring makes of the loggers that were given out. -/
theorem configured_item (level : LogLevel) (format : Value) (handlers : Option (List Nat))
    (stream : Option Nat) (s : Session) :
    let s' := (configure level format handlers stream).perform s
    s'.logging.level = some level ∧ s'.logging.knownIds = s.logging.knownIds ∧
      ∀ id, s'.logging.loggers.item id =
        if id ∈ s.logging.knownIds then
          { s.logging.loggers.item id with level, handlers := sharedList }
        else s.logging.loggers.item id := by
  cases handlers with
  | some handlers => exact ⟨rfl, rfl, configure_item s.logging level handlers⟩
  | none => exact ⟨rfl, rfl, fun id => configure_item _ level _ id⟩

/-- Configuring decides the level of the loggers that names lead to, whether they have been asked
    for before or after it, and of those that are derived from them after it: they let a message
    through just if it reaches the configured level. A logger that was derived before keeps the
    level that it had. So all loggers that were given out are at the configured level if and only if
    those that were derived before were there already. -/
theorem configured_level (initial : s.logging.IsInitial) (before : List LoggingUse)
    (level : LogLevel) (format : Value) (handlers : Option (List Nat)) (stream : Option Nat)
    (steady : ∀ use ∈ later, ¬ use.SetsLevels) :
    let earlier := obtained s s.logging.knownIds before
    let s₁ := after s before
    let s₂ := (configure level format handlers stream).perform s₁
    let now := after s₂ later
    (∀ id ∈ askedFor s before, id ∈ s₁.logging.knownIds) ∧
    (∀ id ∈ obtained s₂ s₁.logging.knownIds later, ∀ l, now.logging.passes id l = l.reaches level) ∧
    (∀ id ∈ earlier, id ∉ s₁.logging.knownIds →
      ∀ l, now.logging.passes id l = s₁.logging.passes id l) ∧
    ((∀ id ∈ obtained s₂ earlier later, ∀ l, now.logging.passes id l = l.reaches level) ↔
      ∀ id ∈ earlier, id ∉ s₁.logging.knownIds → (s₁.logging.loggers.item id).level = level) ∧
    ∀ id l message context fault, Accepted context →
      (logMessage id l message context fault now).2.logging =
        if now.logging.passes id l then
          now.logging.offerAll (now.logging.recordOf now.now id l message context fault)
            (now.logging.handlersOf (now.logging.loggers.item id))
        else now.logging := by
  intro earlier s₁ s₂ now
  have sound : s₁.logging.Sound earlier := after_sound initial.sound before
  have change := perform_change (configure level format handlers stream) s₁ earlier
  obtain ⟨levelSet, sameKnown, items⟩ := configured_item level format handlers stream s₁
  have laterSound : s₂.logging.Sound earlier := by
    simpa [gives, asks] using sound.after change
  have levelled {held : List Nat} (heldSound : s₂.logging.Sound held)
      (derived : ∀ id ∈ held, id ∉ s₁.logging.knownIds →
        (s₁.logging.loggers.item id).level = level) : s₂.logging.Levelled held level := by
    refine ⟨heldSound, levelSet, ?_⟩
    intro id given
    rw [items]
    split
    next => rfl
    next unknown => exact derived id given unknown
  have left (id : Nat) (given : id ∈ earlier) (unknown : id ∉ s₁.logging.knownIds) :
      (now.logging.loggers.item id).level = (s₁.logging.loggers.item id).level := by
    refine (after_level steady (laterSound.shares id given).existing).trans ?_
    rw [items, if_neg unknown]
  refine ⟨fun id asked => askedFor_known before asked, ?_, ?_, ?_, ?_⟩
  · have known := levelled (sameKnown ▸ laterSound.knownOnly)
      (fun id given unknown => absurd given unknown)
    intro id given l
    rw [passes, (after_levelled known steady).items id given]
  · intro id given unknown l
    rw [passes, left id given unknown, passes]
  · constructor
    · intro every id given unknown
      have same := every id (obtained_subset later given)
      rw [← left id given unknown]
      exact LogLevel.reaches_inj same
    · intro derived id given l
      have every := levelled laterSound derived
      rw [passes, (after_levelled every steady).items id given]
  · intro id l message context fault accepted
    rw [logMessage_accepted accepted, log_eq]

end Session

namespace Sample

open LoggingUse

/-- A logger is asked for, and another one is derived from it. -/
def earlyLoggers : List LoggingUse := [ask "app" none, derive 3 [("part", .str "reader")]]

/-- More loggers are asked for and derived. -/
def lateLoggers : List LoggingUse := [derive 3 [], ask "late" none, derive 4 [], ask "app" none]

end Sample

open LoggingUse in
theorem Session.configured_level_sample :
    let s₁ := after {} Sample.earlyLoggers
    let now := after ((configure .debug (.str "text") none none).perform s₁) Sample.lateLoggers
    (∀ id ∈ [0, 1, 2, 3, 5, 6], ∀ l, now.logging.passes id l = l.reaches .debug) ∧
      ∀ id ∈ [4], ∀ l, now.logging.passes id l = l.reaches .warning := by
  intro s₁ now
  have steady : ∀ use ∈ Sample.lateLoggers, ¬ use.SetsLevels := by
    simp [Sample.lateLoggers, SetsLevels]
  obtain ⟨-, configured, left, -⟩ :=
    configured_level (s := {}) ⟨[], .warning, rfl⟩ Sample.earlyLoggers .debug (.str "text") none none
      steady
  constructor
  · intro id given
    apply configured
    revert id
    decide +kernel
  · intro id given l
    obtain rfl := List.mem_singleton.mp given
    have standard : (s₁.logging.loggers.item 4).level = .warning := by decide +kernel
    rw [left 4 (by decide +kernel) (by decide +kernel) l, Logging.passes, standard]

/-- A logger that is derived from another one keeps its level when the other one is configured. -/
theorem Session.level_left_behind :
    let s₁ := LoggingUse.after {} Sample.earlyLoggers
    let now := (LoggingUse.configure .debug (.str "text") (some []) none).perform s₁
    4 ∈ LoggingUse.obtained {} ({} : Session).logging.knownIds Sample.earlyLoggers ∧
      now.logging.passes 3 .debug = true ∧ now.logging.passes 4 .debug = false := by
  decide +kernel

end FieldRules
