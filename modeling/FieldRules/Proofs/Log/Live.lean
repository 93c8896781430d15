import FieldRules.Proofs.Log.Offers
import FieldRules.Proofs.Registry.Making
import FieldRules.Session.Basic

/-! # Messages that are heard at once

Tasks write down their messages, and a session delivers them when the task is done. Here the
messages are offered on the spot, in the middle of a task, to an audience of any kind: each listener
may keep something and may fault, and a fault is caught before the task goes on. `Follows` says that
a task with an audience comes to what the task that writes down comes to, and that the audience has
heard just what was written down. It is proved from step to step: a step that writes nothing down
has nothing to do with what was written before (`Silent`), and a message is heard by all whatever
some of them do (`say_follows`).
-/

namespace FieldRules

/-- One who is offered a message: a fault if it cannot be taken, and what is kept in either case. -/
abbrev Listener (σ : Type) := σ → Outcome Unit × σ

/-- Those to whom a message is offered, given what has been kept before. -/
abbrev Audience (σ : Type) := LogEvent → σ → List (Listener σ)

variable {σ α β : Type}

/-- What is kept when a message has been offered to everyone, faults aside. -/
def Audience.hear (audience : Audience σ) (kept : σ) (event : LogEvent) : σ :=
  (audience event kept).foldl (fun kept listener => (listener kept).2) kept

namespace Logging

/-- A handler that is offered a record. -/
def listener (record : LogRecord) (id : Nat) : Listener Logging := fun logging =>
  match logging.handle record id with
  | .ok changed => (.ok (), changed)
  | .error fault => (.error fault, logging)

/-- The handlers of the logger that a message goes to, if it lets the message through. -/
def audience (now : Calendar.DateTime) : Audience Logging := fun event logging =>
  match logging.known.get? event.source with
  | some id =>
    if logging.passes id .debug then
      (logging.handlersOf (logging.loggers.item id)).map
        (listener (logging.recordOf now id .debug event.message event.context none))
    else []
  | none => []

theorem listener_offer (logging : Logging) (record : LogRecord) (id : Nat) :
    (listener record id logging).2 = logging.offer record id := by
  unfold listener offer
  cases logging.handle record id <;> rfl

/-- What handlers have heard is what was delivered to them. -/
theorem audience_hear (now : Calendar.DateTime) (logging : Logging) (event : LogEvent) :
    (audience now).hear logging event = Session.deliver now logging event := by
  unfold Audience.hear audience Session.deliver
  cases logging.known.get? event.source with
  | none => rfl
  | some id =>
      simp only [log_eq]
      split
      · simp only [List.foldl_map, listener_offer, offerAll]
      · rfl

end Logging

/-! ## Tasks with an audience -/

/-- An operation on a workspace with an audience. -/
abbrev LiveTask (σ α : Type) := ExceptT Fault (StateM (Workspace × σ)) α

namespace LiveTask

/-- A task that does not speak to the audience. -/
def ofTask (task : Task α) : LiveTask σ α := fun (w, kept) =>
  let (outcome, w) := task w
  (outcome, (w, kept))

/-- What a listener does when it is called in the middle of a task. -/
def ofListener (listener : Listener σ) : LiveTask σ Unit := fun (w, kept) =>
  let (outcome, kept) := listener kept
  (outcome, (w, kept))

/-- Calls listeners one after the other, and catches their faults. -/
def callAll : List (Listener σ) → LiveTask σ Unit
  | [] => return
  | listener :: rest => do
    tryCatch (ofListener listener) fun _ => pure ()
    callAll rest

/-- Offers a message to the audience. -/
def say (audience : Audience σ) (event : LogEvent) : LiveTask σ Unit := do
  callAll (audience event (← get).2)

/-- Whatever listeners do, calling them comes to an end without a fault. -/
theorem callAll_eq (listeners : List (Listener σ)) (w : Workspace) (kept : σ) :
    callAll listeners (w, kept) =
      (.ok (), (w, listeners.foldl (fun kept listener => (listener kept).2) kept)) := by
  induction listeners generalizing kept with
  | nil => rfl
  | cons listener rest ih =>
      have called : tryCatch (ofListener listener) (fun _ => pure ()) (w, kept) =
          (.ok (), (w, (listener kept).2)) := by
        rw [Task.tryCatch_eq, ofListener]
        rcases listener kept with ⟨fault | done, after⟩ <;> rfl
      rw [callAll, Task.bind_eq, called]
      exact ih _

theorem say_eq (audience : Audience σ) (event : LogEvent) (w : Workspace) (kept : σ) :
    say audience event (w, kept) = (.ok (), (w, audience.hear kept event)) := by
  rw [say, Task.bind_eq, Task.get_eq]
  exact callAll_eq _ w kept

end LiveTask

namespace Workspace

/-- A workspace in which nothing has been written down. -/
def quiet (w : Workspace) : Workspace := { w with events := [] }

/-- A workspace with an audience that has heard what was written down, having kept something
    before. -/
def told (w : Workspace) (audience : Audience σ) (kept : σ) : Workspace × σ :=
  (w.quiet, w.events.foldl audience.hear kept)

end Workspace

/-! ## Tasks that write nothing down -/

/-- A task that neither reads what was written down nor writes anything. -/
def Task.Silent (task : Task α) : Prop :=
  ∀ (w : Workspace) (events : List LogEvent),
    task { w with events } = ((task w).1, { (task w).2 with events })

namespace Task

theorem Detached.silent {task : Task α} (detached : Detached task) : Silent task := by
  intro w events
  have ran := detached w w.registry events
  have same : w.registry = (task w).2.registry := (detached.registry w).symm
  exact ran.trans (by rw [same])

namespace Silent

theorem ofPure (a : α) : Silent (pure a) := fun _ _ => rfl

theorem ofModify {f : Workspace → Workspace}
    (blind : ∀ w events, f { w with events } = { f w with events }) :
    Silent (modify f : Task Unit) := by
  intro w events
  rw [modify_eq, modify_eq, blind]

theorem bind {task : Task α} {next : α → Task β} (first : Silent task)
    (second : ∀ a, Silent (next a)) : Silent (task >>= next) := by
  intro w events
  rw [bind_eq, bind_eq, first w events]
  rcases task w with ⟨fault | a, w'⟩
  · rfl
  · exact second a w' events

/-- A task may look at what there is, but not at what was written down. -/
theorem withState {next : Workspace → Task α} (blind : ∀ w events, next { w with events } = next w)
    (all : ∀ w, Silent (next w)) : Silent (get >>= next) := by
  intro w events
  rw [bind_eq, bind_eq, get_eq, get_eq]
  exact (congrFun (blind w events) _).trans (all w w events)

/-- What was written down before stays. -/
theorem events {task : Task α} (silent : Silent task) (w : Workspace) :
    (task w).2.events = w.events :=
  congrArg (fun run => run.2.events) (silent w w.events)

end Silent

end Task

/-! ## Following -/

/-- Whether a task with an audience comes to what a task comes to, the audience having heard what
    that one wrote down. -/
def LiveTask.Follows (audience : Audience σ) (live : LiveTask σ α) (task : Task α) : Prop :=
  ∀ (w : Workspace) (kept : σ),
    live (w.told audience kept) = ((task w).1, (task w).2.told audience kept)

namespace LiveTask.Follows

variable {audience : Audience σ}

theorem ofPure (a : α) : Follows audience (pure a) (pure a) := fun _ _ => rfl

theorem ofTask {task : Task α} (silent : task.Silent) : Follows audience (.ofTask task) task := by
  intro w kept
  rw [LiveTask.ofTask, Workspace.told, Workspace.quiet, silent w [], Workspace.told,
    silent.events w]
  rfl

/-- What is offered on the spot is what would be written down. -/
theorem say (event : LogEvent) :
    Follows audience (LiveTask.say audience event) (Task.log event) := by
  intro w kept
  rw [Workspace.told, say_eq, Task.log_eq, Workspace.told, List.foldl_append]
  rfl

theorem bind {live : LiveTask σ α} {task : Task α} (first : Follows audience live task)
    {liveNext : α → LiveTask σ β} {next : α → Task β}
    (second : ∀ a, Follows audience (liveNext a) (next a)) :
    Follows audience (live >>= liveNext) (task >>= next) := by
  intro w kept
  rw [Task.bind_eq, Task.bind_eq, first w kept]
  rcases task w with ⟨fault | a, w'⟩
  · rfl
  · exact second a w' kept

/-- Both may look at what there is, if they do not look at what was written down or kept. -/
theorem withState {liveNext : Workspace × σ → LiveTask σ α} {next : Workspace → Task α}
    (same : ∀ w kept, liveNext (Workspace.told w audience kept) = liveNext (w.quiet, kept))
    (all : ∀ w kept, Follows audience (liveNext (Workspace.quiet w, kept)) (next w)) :
    Follows audience (get >>= liveNext) (get >>= next) := by
  intro w kept
  rw [Task.bind_eq, Task.bind_eq, Task.get_eq, Task.get_eq]
  simp only [same]
  exact all w kept w kept

end LiveTask.Follows

end FieldRules
