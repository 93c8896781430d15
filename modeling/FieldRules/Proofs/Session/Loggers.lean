import FieldRules.Proofs.Keyed
import FieldRules.Proofs.Log.Offers
import FieldRules.Proofs.Workspace
import FieldRules.Session.Logging

/-! # Loggers over histories

Loggers come from three places: they are asked for by name, derived from others, or made with a list
of handlers of their own. `Change` tells what each use of logging can leave behind; whatever is true
of loggers over a history follows from it by cases, and `after_invariant` goes from one use to all.

The loggers that have been asked for, and those that were derived from such, share one list of
handlers: `Sound` is this invariant.
-/

namespace FieldRules

/-- What can be done with the logging of a session. -/
inductive LoggingUse where
  /-- Asks for the logger of a name, perhaps with a level. -/
  | ask (name : String) (asked : Option LogLevel)
  | derive (id : Nat) (context : Keyed Detail)
  | log (id : Nat) (level : LogLevel) (message : String) (context : Keyed Detail)
      (fault : Option LoggedFault)
  /-- Something else is done with the session, and a message is logged about it. -/
  | report (event : LogEvent)
  /-- Settings are changed, from which levels and formats may be read. -/
  | settings (id : Nat) (changed : Settings)
  | configure (level : LogLevel) (format : Value) (handlers : Option (List Nat))
      (stream : Option Nat)
  | addHandler (handler : LogHandler)
  | addStream (formatter : Formatter) (level : LogLevel)
  /-- Adds a logger that no name leads to. -/
  | addLogger (name : String) (level : LogLevel) (handlers : List Nat)
  | attach (id handler : Nat)
  | detach (id handler : Nat)

namespace LoggingUse

open Session

/-- What a use leaves behind, whether it succeeds or faults. -/
def perform (s : Session) : LoggingUse → Session
  | ask name asked => (getLogger name asked s).2
  | derive id context => (addToLogging (·.derive id context) s).2
  | log id level message context fault => (logMessage id level message context fault s).2
  | report event => { s with logging := deliver s.now s.logging event }
  | settings id changed => { s with settings := s.settings.set id changed }
  | configure level format handlers stream => (configureLogging level format handlers stream s).2
  | addHandler handler => (addToLogging (·.addHandler handler) s).2
  | addStream formatter level => (addToLogging (·.addStream formatter level) s).2
  | addLogger name level handlers => (addToLogging (·.addLogger name level handlers) s).2
  | attach id handler => (changeLogging (·.attach id handler) s).2
  | detach id handler =>
    match s.logging.detach id handler with
    | .ok logging => { s with logging }
    | .error _ => s

/-- The loggers that are asked for by a use. -/
def asks (s : Session) : LoggingUse → List Nat
  | ask name asked =>
    match (getLogger name asked s).1 with
    | .ok id => [id]
    | .error _ => []
  | _ => []

/-- The loggers that a use gives out, if `held` have been given out: those that are asked for, and
    those that are derived from loggers that were given out. -/
def gives (s : Session) (held : List Nat) : LoggingUse → List Nat
  | derive id _ => if id ∈ held then [s.logging.loggers.next] else []
  | use => use.asks s

/-- Whether a use says which handlers a list has. -/
def ChangesLists : LoggingUse → Prop
  | configure _ _ _ _ | attach _ _ | detach _ _ => True
  | _ => False

/-- Whether a use sets the level of loggers that exist. -/
def SetsLevels : LoggingUse → Prop
  | ask _ asked => asked.isSome
  | configure _ _ _ _ => True
  | _ => False

/-- The session behind a history. -/
def after (s : Session) (history : List LoggingUse) : Session := history.foldl perform s

/-- The loggers that are asked for in a history. -/
def askedFor (s : Session) : List LoggingUse → List Nat
  | [] => []
  | use :: rest => use.asks s ++ askedFor (use.perform s) rest

/-- The loggers that are given out behind a history. -/
def obtained (s : Session) (held : List Nat) : List LoggingUse → List Nat
  | [] => held
  | use :: rest => obtained (use.perform s) (held ++ use.gives s held) rest

/-- What each use preserves is true behind a history. -/
theorem after_invariant {P : Session → List Nat → Prop} {history : List LoggingUse}
    (step : ∀ use ∈ history, ∀ s held, P s held → P (use.perform s) (held ++ use.gives s held))
    {s : Session} {held : List Nat} (start : P s held) :
    P (after s history) (obtained s held history) := by
  induction history generalizing s held with
  | nil => exact start
  | cons use rest ih =>
      have first := step use List.mem_cons_self s held start
      exact ih (fun other later => step other (List.mem_cons_of_mem _ later)) first

end LoggingUse

namespace Logging

variable {logging logging' : Logging} {held held' : List Nat} {use : LoggingUse}

/-- The loggers that names lead to. -/
def knownIds (logging : Logging) : List Nat := logging.known.map (·.2)

/-- Whether a logger shares the list that is configured. -/
structure Shares (logging : Logging) (id : Nat) : Prop where
  existing : id < logging.loggers.next
  list : (logging.loggers.item id).handlers = sharedList

/-- What is true of the loggers that were given out. -/
structure Sound (logging : Logging) (held : List Nat) : Prop where
  list : sharedList < logging.lists.next
  known : ∀ id ∈ logging.knownIds, id ∈ held
  shares : ∀ id ∈ held, logging.Shares id

/-! ## What can become of loggers -/

/-- What a use makes of logging and of the loggers that are given out. -/
inductive Change (logging : Logging) (held : List Nat) :
    LoggingUse → Logging → List Nat → Prop where
  | same {use : LoggingUse} {logging' : Logging} (same : SameLoggers logging logging') :
      Change logging held use logging' held
  | known {name : String} {id : Nat} (asked : Option LogLevel)
      (found : logging.known.get? name = some id) :
      Change logging held (.ask name asked) (asked.elim logging (logging.setLevel id))
        (held ++ [id])
  | introduced {name : String} {asked : Option LogLevel} {level : LogLevel} (format : Value)
      (unknown : logging.known.get? name = none)
      (decided : ∀ wanted, asked.or logging.level = some wanted → level = wanted) :
      Change logging held (.ask name asked) (logging.introduce name level format).2
        (held ++ [logging.loggers.next])
  | derived (id : Nat) (context : Keyed Detail) :
      Change logging held (.derive id context) (logging.derive id context).2
        (held ++ if id ∈ held then [logging.loggers.next] else [])
  | configured {logging' : Logging} {given : Option (List Nat)} {handlers : List Nat}
      (level : LogLevel) (format : Value) (stream : Option Nat)
      (same : SameLoggers logging logging')
      (decided : ∀ wanted, given = some wanted → handlers = wanted) :
      Change logging held (.configure level format given stream) (logging'.configure level handlers)
        held
  | added (name : String) (level : LogLevel) (handlers : List Nat) :
      Change logging held (.addLogger name level handlers) (logging.addLogger name level handlers).2
        held
  | listed {use : LoggingUse} {lists : Shelf (List Nat)} (changes : use.ChangesLists)
      (next : lists.next = logging.lists.next) : Change logging held use { logging with lists } held

end Logging

namespace Session

open Logging

variable {s : Session} {name : String} {held : List Nat}

theorem inSettings_logging {α : Type} (id : Nat) (task : SettingsTask α) (s : Session) :
    (inSettings id task s).2.logging = s.logging := rfl

theorem getLogger_known {id : Nat} (found : s.logging.known.get? name = some id)
    (asked : Option LogLevel) :
    getLogger name asked s =
      (.ok id, { s with logging := asked.elim s.logging (s.logging.setLevel id) }) := by
  rw [getLogger, Task.bind_eq, Task.get_eq]
  simp only [found]
  cases asked <;> rfl

theorem newLevel_decided {asked : Option LogLevel} {level : LogLevel}
    (decided : asked.or s.logging.level = some level) : newLevel asked s = (.ok level, s) := by
  rw [newLevel, Task.bind_eq, Task.get_eq]
  cases asked with
  | some wanted =>
      cases decided
      rfl
  | none =>
      rw [Option.none_or] at decided
      simp only [decided]
      rfl

theorem newLevel_logging (asked : Option LogLevel) (s : Session) :
    (newLevel asked s).2.logging = s.logging := by
  cases decided : asked.or s.logging.level with
  | some level => rw [newLevel_decided decided]
  | none =>
      obtain ⟨rfl, unset⟩ := Option.or_eq_none_iff.mp decided
      have kept := inSettings_logging mainId (Settings.value "logging.level" (.str "WARNING")) s
      rw [newLevel, Task.bind_eq, Task.get_eq]
      simp only [unset, Task.bind_eq]
      cases ran : inSettings mainId (Settings.value "logging.level" (.str "WARNING")) s with
      | mk outcome s' =>
          rw [ran] at kept
          cases outcome with
          | error fault => exact kept
          | ok setting => exact kept

theorem introduce_id (logging : Logging) (name : String) (level : LogLevel) (format : Value) :
    (logging.introduce name level format).1 = logging.loggers.next := by
  unfold introduce
  split <;> rfl

/-- A logger is introduced when its format has been found. -/
theorem introduce_found {task : Action Value} (kept : (task s).2.logging = s.logging)
    (name : String) (level : LogLevel) :
    let ran := (task >>= fun format => addToLogging (·.introduce name level format)) s
    (∃ fault, ran.1 = .error fault ∧ ran.2.logging = s.logging) ∨
    ∃ format, ran.1 = .ok s.logging.loggers.next ∧
      ran.2.logging = (s.logging.introduce name level format).2 := by
  intro ran
  have unfolded : ran = _ := Task.bind_eq task _ s
  rw [unfolded]
  cases found : task s with
  | mk outcome s' =>
      rw [found] at kept
      cases outcome with
      | error fault => exact .inl ⟨fault, rfl, kept⟩
      | ok format =>
          have same : s'.logging = s.logging := kept
          rw [← same]
          exact .inr ⟨format, congrArg Except.ok (introduce_id s'.logging name level format), rfl⟩

/-- A new logger has the level that it is asked for with, or else the configured one. Where neither
    is given, settings that cannot be read may fault. -/
theorem getLogger_unknown (unknown : s.logging.known.get? name = none) (asked : Option LogLevel) :
    (∃ fault, (getLogger name asked s).1 = .error fault ∧
      (getLogger name asked s).2.logging = s.logging) ∨
    ∃ level format, (getLogger name asked s).1 = .ok s.logging.loggers.next ∧
      (getLogger name asked s).2.logging = (s.logging.introduce name level format).2 ∧
      ∀ wanted, asked.or s.logging.level = some wanted → level = wanted := by
  have levelled := newLevel_logging asked s
  rw [getLogger, Task.bind_eq, Task.get_eq]
  simp only [unknown, Task.bind_eq]
  cases ran : newLevel asked s with
  | mk outcome s' =>
      rw [ran] at levelled
      cases outcome with
      | error fault => exact .inl ⟨fault, rfl, levelled⟩
      | ok level =>
          have decided (wanted : LogLevel) (given : asked.or s.logging.level = some wanted) :
              level = wanted := by
            have same := newLevel_decided given
            rw [ran] at same
            injection same with same
            injection same
          have same : s'.logging = s.logging := levelled
          simp only [Task.get_eq, ← same] at decided ⊢
          have finish {task : Action Value} (kept : (task s').2.logging = s'.logging) :=
            introduce_found kept name level
          -- The format is read from the settings unless it has been configured.
          split
          · cases
              finish (inSettings_logging mainId (Settings.value "logging.format" (.str "text")) s')
              with
            | inl failed => exact .inl failed
            | inr done =>
                obtain ⟨format, id, after⟩ := done
                exact .inr ⟨level, format, id, after, decided⟩
          · exact .inr ⟨level, .str "text", congrArg Except.ok (introduce_id _ _ _ _), rfl, decided⟩

/-- A message that is refused or does not reach its logger changes nothing. -/
theorem logMessage_same (id : Nat) (level : LogLevel) (message : String) (context : Keyed Detail)
    (fault : Option LoggedFault) (s : Session) :
    SameLoggers s.logging (logMessage id level message context fault s).2.logging := by
  unfold logMessage
  cases context.find? fun entry => reservedNames.contains entry.1 with
  | some entry => exact .refl s.logging
  | none =>
      cases context.find? fun entry => laterReservedNames.contains entry.1 with
      | some entry => exact .refl s.logging
      | none => exact log_same s.logging s.now id level message context fault

/-- Whether details name none of the parameters of logging. -/
def Accepted (context : Keyed Detail) : Prop :=
  ∀ entry ∈ context, entry.1 ∉ reservedNames ∧ entry.1 ∉ laterReservedNames

theorem logMessage_accepted {context : Keyed Detail} (accepted : Accepted context) (id : Nat)
    (level : LogLevel) (message : String) (fault : Option LoggedFault) (s : Session) :
    logMessage id level message context fault s =
      (.ok (), { s with logging := s.logging.log s.now id level message context fault }) := by
  have unreserved : context.find? (fun entry => reservedNames.contains entry.1) = none := by
    rw [List.find?_eq_none]
    intro entry member
    simpa using (accepted entry member).1
  have unreservedLater :
      context.find? (fun entry => laterReservedNames.contains entry.1) = none := by
    rw [List.find?_eq_none]
    intro entry member
    simpa using (accepted entry member).2
  simp only [logMessage, unreserved, unreservedLater]
  rfl

/-- Whether a message is refused is not a matter of handlers. -/
theorem logMessage_outcome (id : Nat) (level : LogLevel) (message : String) (context : Keyed Detail)
    (fault : Option LoggedFault) (s s' : Session) :
    (logMessage id level message context fault s).1 =
      (logMessage id level message context fault s').1 := by
  unfold logMessage
  cases context.find? fun entry => reservedNames.contains entry.1 with
  | some entry => rfl
  | none => cases context.find? fun entry => laterReservedNames.contains entry.1 <;> rfl

theorem deliver_same (now : Calendar.DateTime) (logging : Logging) (event : LogEvent) :
    SameLoggers logging (deliver now logging event) := by
  unfold deliver
  cases logging.known.get? event.source with
  | some id => exact log_same logging now id _ _ _ _
  | none => exact .refl logging

theorem perform_silent {use : LoggingUse} (silent : use.gives s held = [])
    (change : Change s.logging held use (use.perform s).logging held) :
    Change s.logging held use (use.perform s).logging (held ++ use.gives s held) := by
  rwa [silent, List.append_nil]

theorem perform_change (use : LoggingUse) (s : Session) (held : List Nat) :
    Change s.logging held use (use.perform s).logging (held ++ use.gives s held) := by
  cases use with
  | ask name asked =>
      cases found : s.logging.known.get? name with
      | some id =>
          have ran := getLogger_known found asked
          simp only [LoggingUse.perform, LoggingUse.gives, LoggingUse.asks, ran]
          exact .known asked found
      | none =>
          cases getLogger_unknown found asked with
          | inl failed =>
              obtain ⟨fault, outcome, kept⟩ := failed
              apply perform_silent
              · simp only [LoggingUse.gives, LoggingUse.asks, outcome]
              · simp only [LoggingUse.perform, kept]
                exact .same (.refl s.logging)
          | inr done =>
              obtain ⟨level, format, outcome, after, decided⟩ := done
              simp only [LoggingUse.perform, LoggingUse.gives, LoggingUse.asks, outcome, after]
              exact .introduced format found decided
  | derive id context => exact .derived id context
  | log id level message context fault =>
      exact perform_silent rfl (.same (logMessage_same id level message context fault s))
  | report event => exact perform_silent rfl (.same (deliver_same s.now s.logging event))
  | settings id changed => exact perform_silent rfl (.same (.refl s.logging))
  | configure level format given stream =>
      apply perform_silent rfl
      cases given with
      | some handlers => exact .configured level format stream (.refl s.logging) (by simp)
      | none =>
          -- The handler that is made for the stream comes before the loggers are configured.
          exact .configured level format stream ⟨Nat.le_succ _, rfl, rfl, rfl, rfl⟩ (by simp)
  | addHandler handler => exact perform_silent rfl (.same ⟨Nat.le_succ _, rfl, rfl, rfl, rfl⟩)
  | addStream formatter level =>
      exact perform_silent rfl (.same ⟨Nat.le_succ _, rfl, rfl, rfl, rfl⟩)
  | addLogger name level handlers => exact perform_silent rfl (.added name level handlers)
  | attach id handler => exact perform_silent rfl (.listed trivial rfl)
  | detach id handler =>
      apply perform_silent rfl
      simp only [LoggingUse.perform, detach]
      by_cases present :
          (s.logging.lists.item (s.logging.loggers.item id).handlers).contains handler
      · rw [if_pos present]
        exact .listed trivial rfl
      · rw [if_neg present]
        exact .same (.refl s.logging)

end Session

namespace Logging

variable {logging logging' : Logging} {held held' : List Nat} {use : LoggingUse}

/-! ## What becomes of loggers -/

theorem introduce_known (logging : Logging) (name : String) (level : LogLevel) (format : Value) :
    (logging.introduce name level format).2.known =
      logging.known.put name logging.loggers.next := by
  unfold introduce
  split <;> rfl

theorem introduce_loggers (logging : Logging) (name : String) (level : LogLevel) (format : Value) :
    (logging.introduce name level format).2.loggers =
      (logging.loggers.add { name, level, handlers := sharedList }).2 := by
  unfold introduce
  split <;> rfl

/-- A logger under a new name puts a handler into the shared list if that has none. -/
theorem introduce_lists (logging : Logging) (name : String) (level : LogLevel) (format : Value) :
    (logging.introduce name level format).2.lists =
      if (logging.lists.item sharedList).isEmpty then
        logging.lists.set sharedList [logging.handlers.next]
      else logging.lists := by
  unfold introduce
  split <;> rfl

theorem introduce_next (logging : Logging) (name : String) (level : LogLevel) (format : Value) :
    logging.handlers.next ≤ (logging.introduce name level format).2.handlers.next := by
  unfold introduce
  split
  · exact Nat.le_succ _
  · exact Nat.le_refl _

theorem introduce_level (logging : Logging) (name : String) (level : LogLevel) (format : Value) :
    (logging.introduce name level format).2.level = logging.level := by
  unfold introduce
  split <;> rfl

/-- What is changed in the same way at several identities, perhaps more than once. -/
theorem modifyAll_item {α : Type} (entries : Keyed Nat) {f : α → α} (stable : ∀ a, f (f a) = f a)
    (shelf : Shelf α) (id : Nat) :
    (entries.foldl (fun sum entry => sum.modify entry.2 f) shelf).item id =
      if id ∈ entries.map (·.2) then f (shelf.item id) else shelf.item id := by
  induction entries generalizing shelf with
  | nil => rfl
  | cons entry rest ih =>
      have later := ih (shelf.modify entry.2 f)
      rw [List.foldl_cons, later]
      by_cases here : id = entry.2
      · simp [Shelf.modify, here, stable]
      · have other : (shelf.modify entry.2 f).item id = shelf.item id := if_neg here
        simp only [other, List.map_cons, List.mem_cons, here, false_or]

theorem modifyAll_next {α : Type} (entries : Keyed Nat) (f : α → α) (shelf : Shelf α) :
    (entries.foldl (fun sum entry => sum.modify entry.2 f) shelf).next = shelf.next := by
  induction entries generalizing shelf with
  | nil => rfl
  | cons entry rest ih => exact ih (shelf.modify entry.2 f)

theorem configure_item (logging : Logging) (level : LogLevel) (handlers : List Nat) (id : Nat) :
    (logging.configure level handlers).loggers.item id =
      if id ∈ logging.knownIds then
        { logging.loggers.item id with level, handlers := sharedList }
      else logging.loggers.item id :=
  modifyAll_item logging.known
    (f := fun logger : Logger => { logger with level, handlers := sharedList }) (fun _ => rfl)
    logging.loggers id

theorem configure_next (logging : Logging) (level : LogLevel) (handlers : List Nat) :
    (logging.configure level handlers).loggers.next = logging.loggers.next :=
  modifyAll_next logging.known _ logging.loggers

theorem configure_knownIds (logging : Logging) (level : LogLevel) (handlers : List Nat) :
    (logging.configure level handlers).knownIds = logging.knownIds := rfl

theorem SameLoggers.knownIds (same : SameLoggers logging logging') :
    logging'.knownIds = logging.knownIds := by
  rw [Logging.knownIds, same.known]
  rfl

theorem mem_knownIds {name : String} {id : Nat} (found : logging.known.get? name = some id) :
    id ∈ logging.knownIds :=
  List.mem_map.mpr ⟨_, Keyed.mem_of_get? found, rfl⟩

theorem introduce_knownIds {name : String} (unknown : logging.known.get? name = none)
    (level : LogLevel) (format : Value) :
    (logging.introduce name level format).2.knownIds =
      logging.knownIds ++ [logging.loggers.next] := by
  rw [knownIds, introduce_known, Keyed.put_of_not_mem (Keyed.get?_eq_none.mp unknown)]
  simp [knownIds]

theorem Change.next (change : Change logging held use logging' held') :
    logging.loggers.next ≤ logging'.loggers.next := by
  cases change with
  | same same => exact Nat.le_of_eq (congrArg (·.next) same.loggers.symm)
  | known asked found => cases asked <;> exact Nat.le_refl _
  | introduced format unknown decided =>
      rw [introduce_loggers]
      exact Nat.le_succ _
  | derived parent context => exact Nat.le_succ _
  | configured level format stream same decided =>
      exact Nat.le_of_eq (by rw [configure_next, same.loggers])
  | added name level handlers => exact Nat.le_succ _
  | listed changes next => exact Nat.le_refl _

/-- What a use leaves of a logger that was there before. -/
structure LeftOf (use : LoggingUse) (logger logger' : Logger) : Prop where
  list : logger'.handlers = logger.handlers ∨ logger'.handlers = sharedList
  level : ¬ use.SetsLevels → logger'.level = logger.level

theorem LeftOf.all (use : LoggingUse) (logger : Logger) : LeftOf use logger logger :=
  ⟨.inl rfl, fun _ => rfl⟩

theorem Change.item (change : Change logging held use logging' held') {id : Nat}
    (existing : id < logging.loggers.next) :
    LeftOf use (logging.loggers.item id) (logging'.loggers.item id) := by
  -- A logger that is added has an identity that none of the old ones has.
  have old : id ≠ logging.loggers.next := Nat.ne_of_lt existing
  cases change with
  | same same =>
      rw [same.loggers]
      exact .all _ _
  | @known name other asked found =>
      cases asked with
      | none => exact .all _ _
      | some level =>
          by_cases here : id = other
          · subst here
            constructor
            · simp [setLevel, Shelf.modify]
            · simp [LoggingUse.SetsLevels]
          · have same : (logging.setLevel other level).loggers.item id = logging.loggers.item id :=
              if_neg here
            rw [Option.elim, same]
            exact .all _ _
  | introduced format unknown decided =>
      rw [introduce_loggers, Shelf.item_add, if_neg old]
      exact .all _ _
  | derived parent context =>
      have same : (logging.derive parent context).2.loggers.item id = logging.loggers.item id :=
        if_neg old
      rw [same]
      exact .all _ _
  | configured level format stream same decided =>
      rw [configure_item, same.loggers]
      split
      · constructor
        · exact .inr rfl
        · simp [LoggingUse.SetsLevels]
      · exact .all _ _
  | added name level handlers =>
      have same : (logging.addLogger name level handlers).2.loggers.item id =
          logging.loggers.item id := if_neg old
      rw [same]
      exact .all _ _
  | listed changes next => exact .all _ _

theorem Shares.after {id : Nat} (shares : logging.Shares id)
    (change : Change logging held use logging' held') : logging'.Shares id where
  existing := Nat.lt_of_lt_of_le shares.existing change.next
  list := by
    cases (change.item shares.existing).list with
    | inl same => exact same.trans shares.list
    | inr configured => exact configured

/-- What a logger is that is given out when it is added. -/
inductive NewLogger (logging : Logging) (held : List Nat) : LoggingUse → Logger → Prop where
  | introduced {name : String} {asked : Option LogLevel} {level : LogLevel}
      (decided : ∀ wanted, asked.or logging.level = some wanted → level = wanted) :
      NewLogger logging held (.ask name asked) { name, level, handlers := sharedList }
  | derived {parent : Nat} (given : parent ∈ held) (more context : Keyed Detail) :
      NewLogger logging held (.derive parent more) { logging.loggers.item parent with context }

theorem Change.given (change : Change logging held use logging' held') {id : Nat}
    (given : id ∈ held') :
    id ∈ held ∨ id ∈ logging.knownIds ∨
      logging.loggers.next = id ∧ id < logging'.loggers.next ∧
        NewLogger logging held use (logging'.loggers.item id) := by
  cases change with
  | same same => exact .inl given
  | known asked found =>
      cases List.mem_append.mp given with
      | inl before => exact .inl before
      | inr now =>
          rw [List.mem_singleton.mp now]
          exact .inr (.inl (mem_knownIds found))
  | introduced format unknown decided =>
      cases List.mem_append.mp given with
      | inl before => exact .inl before
      | inr now =>
          have new := List.mem_singleton.mp now
          rw [introduce_loggers, Shelf.item_add, if_pos new]
          exact .inr (.inr ⟨new.symm, new ▸ Nat.lt_succ_self _, .introduced decided⟩)
  | derived parent context =>
      cases List.mem_append.mp given with
      | inl before => exact .inl before
      | inr now =>
          split at now
          next isHeld =>
            have new := List.mem_singleton.mp now
            have item : (logging.derive parent context).2.loggers.item id = _ := if_pos new
            rw [item]
            exact .inr (.inr ⟨new.symm, new ▸ Nat.lt_succ_self _, .derived isHeld context _⟩)
          next => cases now
  | configured level format stream same decided => exact .inl given
  | added name level handlers => exact .inl given
  | listed changes next => exact .inl given

theorem Change.stillHeld (change : Change logging held use logging' held') {id : Nat}
    (before : id ∈ held) : id ∈ held' := by
  cases change with
  | same | configured | added | listed => exact before
  | known | introduced | derived => exact List.mem_append_left _ before

/-- Names lead to nothing but what has been given out. -/
theorem Change.knownIds (change : Change logging held use logging' held') {id : Nat}
    (known : id ∈ logging'.knownIds) : id ∈ logging.knownIds ∨ id ∈ held' := by
  cases change with
  | same same =>
      rw [same.knownIds] at known
      exact .inl known
  | known asked found => cases asked <;> exact .inl known
  | introduced format unknown decided =>
      rw [introduce_knownIds unknown] at known
      exact (List.mem_append.mp known).imp_right (List.mem_append_right held)
  | derived parent context => exact .inl known
  | configured level format stream same decided =>
      rw [configure_knownIds, same.knownIds] at known
      exact .inl known
  | added name level handlers => exact .inl known
  | listed changes next => exact .inl known

theorem Change.stillKnown (change : Change logging held use logging' held') {id : Nat}
    (known : id ∈ logging.knownIds) : id ∈ logging'.knownIds := by
  cases change with
  | same same => rwa [same.knownIds]
  | known asked found => cases asked <;> exact known
  | introduced format unknown decided =>
      rw [introduce_knownIds unknown]
      exact List.mem_append_left _ known
  | configured level format stream same decided =>
      rwa [configure_knownIds, same.knownIds]
  | derived | added | listed => exact known

theorem Change.lists (change : Change logging held use logging' held') :
    logging.lists.next ≤ logging'.lists.next := by
  cases change with
  | same same => exact Nat.le_of_eq (congrArg (·.next) same.lists.symm)
  | known asked found => cases asked <;> exact Nat.le_refl _
  | introduced format unknown decided =>
      rw [introduce_lists]
      split <;> exact Nat.le_refl _
  | derived parent context => exact Nat.le_refl _
  | configured level format stream same decided =>
      exact Nat.le_of_eq (congrArg (·.next) same.lists.symm)
  | added name level handlers => exact Nat.le_succ _
  | listed changes next => exact Nat.le_of_eq next.symm

theorem Sound.knownOnly (sound : logging.Sound held) : logging.Sound logging.knownIds where
  list := sound.list
  known _ known := known
  shares id known := sound.shares id (sound.known id known)

/-- A use keeps what is true of the loggers that were given out. -/
theorem Sound.after (sound : logging.Sound held) (change : Change logging held use logging' held') :
    logging'.Sound held' where
  list := Nat.lt_of_lt_of_le sound.list change.lists
  known id known := by
    cases change.knownIds known with
    | inl before => exact change.stillHeld (sound.known id before)
    | inr given => exact given
  shares id given := by
    cases change.given given with
    | inl before => exact (sound.shares id before).after change
    | inr rest =>
        cases rest with
        | inl known => exact (sound.shares id (sound.known id known)).after change
        | inr new =>
            -- A derived logger has the list of its parent, which was given out and so shares it.
            obtain ⟨-, existing, isNew⟩ := new
            constructor
            · exact existing
            · generalize logging'.loggers.item id = logger at isNew ⊢
              cases isNew with
              | introduced decided => rfl
              | derived parentGiven more context => exact (sound.shares _ parentGiven).list

/-- Logging before anything is done: there are the loggers of the modules, which have some level and
    share some handlers. -/
def IsInitial (logging : Logging) : Prop :=
  ∃ handlers level, logging = .ofNames LogEvent.sources handlers level

theorem Sound.addKnown (sound : logging.Sound logging.knownIds) (name : String)
    (level : LogLevel) :
    let logging' := (logging.addKnown { name, level, handlers := sharedList }).2
    logging'.Sound logging'.knownIds where
  list := sound.list
  known _ known := known
  shares id known := by
    obtain ⟨row, member, rfl⟩ := List.mem_map.mp known
    rcases Keyed.mem_put member with rfl | before
    · exact ⟨Nat.lt_succ_self _, congrArg Logger.handlers (if_pos rfl)⟩
    · have shares := sound.shares row.2 (List.mem_map_of_mem before)
      have other : row.2 ≠ logging.loggers.next := Nat.ne_of_lt shares.existing
      refine ⟨Nat.lt_succ_of_lt shares.existing, ?_⟩
      exact (congrArg Logger.handlers (if_neg other)).trans shares.list

/-- The loggers of the modules have been asked for by name before anything else is done. -/
theorem IsInitial.sound (initial : logging.IsInitial) : logging.Sound logging.knownIds := by
  obtain ⟨handlers, level, rfl⟩ := initial
  rw [ofNames]
  refine List.foldlRecOn (motive := fun sum : Logging => sum.Sound sum.knownIds) _ _ ?_ ?_
  · exact ⟨Nat.zero_lt_one, nofun, nofun⟩
  · exact fun sum sound name _ => sound.addKnown name level

end Logging

/-! ## Sessions -/

namespace Session

open Logging LoggingUse

variable {s : Session} {held : List Nat}

theorem after_sound (sound : s.logging.Sound held) (history : List LoggingUse) :
    (after s history).logging.Sound (obtained s held history) :=
  after_invariant (P := fun s held => s.logging.Sound held)
    (fun use _ s held sound => sound.after (perform_change use s held)) sound

theorem asks_known (use : LoggingUse) (s : Session) {id : Nat} (asked : id ∈ use.asks s) :
    id ∈ (use.perform s).logging.knownIds := by
  cases use with
  | ask name wanted =>
      cases found : s.logging.known.get? name with
      | some other =>
          simp only [asks, perform, getLogger_known found wanted, List.mem_singleton] at asked ⊢
          subst asked
          cases wanted <;> exact mem_knownIds found
      | none =>
          cases getLogger_unknown found wanted with
          | inl failed =>
              obtain ⟨fault, outcome, kept⟩ := failed
              simp [asks, outcome] at asked
          | inr done =>
              obtain ⟨level, format, outcome, after, decided⟩ := done
              simp only [asks, outcome, List.mem_singleton] at asked
              simp only [perform, after, introduce_knownIds found, asked]
              exact List.mem_append_right _ (List.mem_singleton_self _)
  | _ => exact absurd asked List.not_mem_nil

theorem after_known (history : List LoggingUse) {s : Session} {id : Nat}
    (known : id ∈ s.logging.knownIds) : id ∈ (after s history).logging.knownIds := by
  induction history generalizing s with
  | nil => exact known
  | cons use rest ih => exact ih ((perform_change use s []).stillKnown known)

/-- Names lead to the loggers that have been asked for. -/
theorem askedFor_known (history : List LoggingUse) {s : Session} {id : Nat}
    (asked : id ∈ askedFor s history) : id ∈ (after s history).logging.knownIds := by
  induction history generalizing s with
  | nil => exact absurd asked List.not_mem_nil
  | cons use rest ih =>
      cases List.mem_append.mp asked with
      | inl now => exact after_known rest (asks_known use s now)
      | inr later => exact ih later

end Session

end FieldRules
