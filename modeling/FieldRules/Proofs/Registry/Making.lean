import FieldRules.Proofs.Workspace
import FieldRules.Registry.RuleString

/-! # Making rules apart from the registry

Rules are made from rules, classes and functions. What makes them neither reads the registry nor
changes it, and writes nothing for the log; the same holds of checking an entry and of settling its
identifier. So what these tasks come to is the same whatever is registered, and a fault among them
leaves the registry as it was.
-/

namespace FieldRules

/-- A task that has nothing to do with the registry and the log: with others in their place it does
    the same, and leaves those as they are. -/
def Task.Detached {α : Type} (task : Task α) : Prop :=
  ∀ (w : Workspace) (registry : Registry) (events : List LogEvent),
    task { w with registry, events } = ((task w).1, { (task w).2 with registry, events })

namespace Task.Detached

variable {α β : Type} {task : Task α}

theorem ofPure (a : α) : Detached (pure a) := fun _ _ _ => rfl

theorem ofFault (fault : Fault) : Detached (throw fault : Task α) := fun _ _ _ => rfl

theorem ofOutcome (outcome : Outcome α) : Detached (Task.ofOutcome outcome) := fun _ _ _ => rfl

theorem addRule (rule : Rule) : Detached (Task.addRule rule) := fun _ _ _ => rfl

theorem ruleOf (id : RuleId) : Detached (Task.ruleOf id) := fun _ _ _ => rfl

theorem bind (first : Detached task) {next : α → Task β} (second : ∀ a, Detached (next a)) :
    Detached (task >>= next) := by
  intro w registry events
  rw [bind_eq, bind_eq, first w registry events]
  rcases task w with ⟨fault | a, w'⟩
  · rfl
  · exact second a w' registry events

/-- A task may look at what exists, but not at what is registered. -/
theorem withState {next : Workspace → Task α}
    (blind : ∀ w registry events, next { w with registry, events } = next w)
    (all : ∀ w, Detached (next w)) : Detached (get >>= next) := by
  intro w registry events
  rw [bind_eq, bind_eq, get_eq, get_eq]
  exact (congrFun (blind w registry events) _).trans (all w w registry events)

theorem rethrowing (detached : Detached task) (change : Fault → Fault) :
    Detached (tryCatch task fun fault => throw (change fault)) := by
  intro w registry events
  rw [tryCatch_eq, tryCatch_eq, detached w registry events]
  rcases task w with ⟨fault | a, w'⟩ <;> rfl

/-- Such a task leaves the registry alone, whether it succeeds or faults. -/
theorem registry (detached : Detached task) (w : Workspace) :
    (task w).2.registry = w.registry := by
  have same := detached w w.registry w.events
  exact congrArg (fun run => run.2.registry) same

end Task.Detached

theorem Callable.call_detached (c : Callable) (arguments : List Value) :
    Task.Detached (c.call arguments) := by
  obtain ⟨id, name, label, isUnary, run⟩ := c
  have calling : Task.Detached (Callable.call ⟨id, name, label, false, run⟩ arguments) := by
    cases label <;> exact fun _ _ _ => rfl
  cases isUnary with
  | false => exact calling
  | true => exact .bind (.ofOutcome _) fun _ => calling

namespace Factory

theorem make_detached (factory : Factory) (arguments : List Value) :
    Task.Detached (factory.make arguments) := by
  cases factory with
  | shared id => exact .ofPure _
  | ofClass c =>
      refine .bind (.ofOutcome _) fun rule => ?_
      exact .bind (.addRule rule) fun id => .ofPure _
  | callable c =>
      refine .bind (c.call_detached arguments) fun product => ?_
      cases product with
      | shared | value | foreign => exact .ofPure _
      | fresh rule => exact .bind (.addRule rule) fun id => .ofPure _

theorem construct_detached (factory : Factory) (identifier : String) (arguments : List Value) :
    Task.Detached (factory.construct identifier arguments) := by
  have making := (factory.make_detached arguments).rethrowing (buildFault identifier arguments)
  cases factory with
  | shared id =>
      simp only [construct]
      split
      · exact .ofPure id
      · exact .ofFault _
  | ofClass | callable =>
      refine making.bind fun made => ?_
      cases made with
      | inl id => exact .ofPure id
      | inr typeName => exact .ofFault _

theorem instantiate_detached (factory : Factory) : Task.Detached factory.instantiate := by
  refine .withState (fun _ _ _ => rfl) fun w => ?_
  refine ((factory.make_detached []).rethrowing _).bind fun made => ?_
  cases made with
  | inl id => exact .ofPure id
  | inr typeName => exact .ofFault _

end Factory

namespace Registry

theorem derivedIdentifier_detached (factory : Factory) :
    Task.Detached (derivedIdentifier factory) := by
  refine .bind factory.instantiate_detached fun id => ?_
  refine .bind (.ruleOf id) fun rule => ?_
  split
  · exact .bind (.ofOutcome _) fun printed => .bind (.ofFault _) fun _ => .ofPure _
  · exact .ofPure _

theorem prepare_detached (written : Written) (identifier : Option String) :
    Task.Detached (prepare written identifier) := by
  refine .withState (fun _ _ _ => rfl) fun w => ?_
  refine .bind (.ofOutcome _) fun factory => ?_
  split
  · exact .ofFault _
  · exact .ofPure _
  · exact (derivedIdentifier_detached factory).bind fun identifier => .ofPure _

theorem prepareAll_detached (entries : List (Option String × Written)) :
    Task.Detached (prepareAll entries) := by
  induction entries with
  | nil => exact .ofPure []
  | cons entry rest ih =>
      obtain ⟨identifier, written⟩ := entry
      refine (prepare_detached written identifier).bind fun prepared => ?_
      exact ih.bind fun others => .ofPure _

theorem buildTokens_detached (tokens : List Token) : Task.Detached (buildTokens tokens) := by
  induction tokens with
  | nil => exact .ofPure []
  | cons token rest ih =>
      refine (token.factory.construct_detached _ _).bind fun id => ?_
      exact ih.bind fun ids => .ofPure _

end Registry

end FieldRules
