import FieldRules.Validation.Table

/-! # Workspaces that keep what they had

Tasks give new rules an identity and change the codes that rules have recorded. `KeptIn` says
that nothing else happened to what a workspace had, and `InUse` that whatever is named already
has an identity there. Both are what a run can rely on while it works: a rule that it makes on
the way is never one that a table, a function or the registry named before.
-/

namespace FieldRules

/-- A rule without the codes of its last check. -/
def Rule.cleared (rule : Rule) : Rule := { rule with violations := [] }

/-- Whether a rule that a function gives back exists, if it is to exist already. -/
def Product.InUse (rules : RuleStore) : Product → Prop
  | .shared id => id < rules.next
  | _ => True

/-- Whether a function gives back no rules but those that exist and new ones. -/
def Callable.InUse (rules : RuleStore) (c : Callable) : Prop :=
  ∀ arguments product, c.run arguments = .ok product → product.InUse rules

/-- Whether everything exists that an entry of a table names. -/
def TableEntry.InUse (rules : RuleStore) : TableEntry → Prop
  | .bound id => id < rules.next
  | .callable c => c.InUse rules

/-- Whether the rules exist that a registry shares. -/
def Registry.InUse (rules : RuleStore) (registry : Registry) : Prop :=
  ∀ identifier id, (identifier, .shared id) ∈ registry.entries → id < rules.next

/-- What a run relies on: the attributes of a table are distinct, as the keys of a mapping are,
    and the rules exist that the table, its functions and the registry name. -/
structure RuleTable.Sound (w : Workspace) (table : RuleTable) : Prop where
  distinct : (Keyed.names table).Nodup
  used : ∀ row ∈ table, ∀ entry ∈ row.2, entry.InUse w.rules
  registered : w.registry.InUse w.rules

/-- A rule that has no identity yet is registered nowhere. -/
theorem Registry.InUse.unregistered {rules : RuleStore} {registry : Registry}
    (registered : registry.InUse rules) {id : RuleId} (unused : rules.next ≤ id) :
    registry.identifierOf (.rule id) = none := by
  simp only [Registry.identifierOf, Option.map_eq_none_iff, List.find?_eq_none]
  intro row member
  obtain ⟨identifier, factory⟩ := row
  cases factory with
  | shared other =>
      have below := registered identifier other member
      have different : other ≠ id := Nat.ne_of_lt (Nat.lt_of_lt_of_le below unused)
      simpa [Factory.isThe] using different
  | ofClass | callable => simp [Factory.isThe]

namespace Workspace

/-- Nothing that `w` had is different in `w'`, but for the codes that checks recorded. -/
structure KeptIn (w w' : Workspace) : Prop where
  entries : w'.registry.entries = w.registry.entries
  next : w.rules.next ≤ w'.rules.next
  cleared : ∀ id < w.rules.next, (w'.rules.item id).cleared = (w.rules.item id).cleared

namespace KeptIn

variable {w w' w'' : Workspace}

theorem refl (w : Workspace) : KeptIn w w := ⟨rfl, Nat.le_refl _, fun _ _ => rfl⟩

theorem trans (first : KeptIn w w') (second : KeptIn w' w'') : KeptIn w w'' where
  entries := second.entries.trans first.entries
  next := Nat.le_trans first.next second.next
  cleared id below :=
    (second.cleared id (Nat.lt_of_lt_of_le below first.next)).trans (first.cleared id below)

/-- The calls that were seen and the messages for the log are nothing that tasks rely on. -/
theorem noting (kept : KeptIn w w') (seen : List (String × Value)) (events : List LogEvent) :
    KeptIn w { w' with seen, events } :=
  ⟨kept.entries, kept.next, kept.cleared⟩

theorem adding (kept : KeptIn w w') (rule : Rule) :
    KeptIn w { w' with rules := (w'.rules.add rule).2 } where
  entries := kept.entries
  next := Nat.le_succ_of_le kept.next
  cleared id below := by
    have old : id ≠ w'.rules.next := by have := kept.next; omega
    simpa [old] using kept.cleared id below

theorem checking (kept : KeptIn w w') {id : RuleId} {checked : Rule}
    (same : checked.cleared = (w'.rules.item id).cleared) :
    KeptIn w { w' with rules := w'.rules.set id checked } where
  entries := kept.entries
  next := kept.next
  cleared other below := by
    by_cases here : other = id
    · subst here
      simpa [same] using kept.cleared other below
    · simpa [here] using kept.cleared other below

theorem identifierOf (kept : KeptIn w w') (written : Written) :
    w'.registry.identifierOf written = w.registry.identifierOf written := by
  simp only [Registry.identifierOf, kept.entries]

theorem registryInUse (kept : KeptIn w w') (registered : w.registry.InUse w.rules) :
    w'.registry.InUse w'.rules := by
  intro identifier id member
  rw [kept.entries] at member
  exact Nat.lt_of_lt_of_le (registered identifier id member) kept.next

end KeptIn

end Workspace

/-! ## Tasks step by step

The first lemmas are about tasks on any state, so that they serve for the actions of sessions too.
-/

namespace Task

variable {α β σ : Type}

theorem bind_eq (task : ExceptT Fault (StateM σ) α) (next : α → ExceptT Fault (StateM σ) β)
    (state : σ) :
    (task >>= next) state =
      match task state with
      | (.ok a, state') => next a state'
      | (.error fault, state') => (.error fault, state') := by
  show (ExceptT.bind task next : ExceptT Fault (StateM σ) β) state = _
  simp only [ExceptT.bind, ExceptT.mk, ExceptT.bindCont, bind, StateT.bind]
  rcases task state with ⟨outcome | a, state'⟩ <;> rfl

/-- What returns at last has returned step by step. -/
theorem bind_ran {task : ExceptT Fault (StateM σ) α} {next : α → ExceptT Fault (StateM σ) β}
    {state state' : σ} {b : β} (ran : (task >>= next) state = (.ok b, state')) :
    ∃ a between, task state = (.ok a, between) ∧ next a between = (.ok b, state') := by
  rw [bind_eq] at ran
  rcases first : task state with ⟨fault | a, between⟩ <;> rw [first] at ran
  · cases ran
  · exact ⟨a, between, rfl, ran⟩

theorem tryCatch_eq (task : ExceptT Fault (StateM σ) α)
    (handler : Fault → ExceptT Fault (StateM σ) α) (state : σ) :
    tryCatch task handler state =
      match task state with
      | (.ok a, state') => (.ok a, state')
      | (.error fault, state') => handler fault state' := by
  show ExceptT.tryCatch task handler state = _
  simp only [ExceptT.tryCatch, ExceptT.mk, bind, StateT.bind]
  rcases task state with ⟨outcome | a, state'⟩ <;> rfl

theorem pure_eq (a : α) (state : σ) : (pure a : ExceptT Fault (StateM σ) α) state = (.ok a, state) :=
  rfl

theorem get_eq (state : σ) : (get : ExceptT Fault (StateM σ) σ) state = (.ok state, state) := rfl

theorem modify_eq (f : σ → σ) (state : σ) :
    (modify f : ExceptT Fault (StateM σ) PUnit) state = (.ok ⟨⟩, f state) := rfl

theorem ofOutcome_eq (outcome : Outcome α) (w : Workspace) : ofOutcome outcome w = (outcome, w) :=
  rfl

theorem log_eq (event : LogEvent) (w : Workspace) :
    log event w = (.ok (), { w with events := w.events ++ [event] }) := rfl

theorem addRule_eq (rule : Rule) (w : Workspace) :
    addRule rule w = (.ok w.rules.next, { w with rules := (w.rules.add rule).2 }) := rfl

theorem ruleOf_eq (id : RuleId) (w : Workspace) : ruleOf id w = (.ok (w.rules.item id), w) := rfl

theorem setRule_eq (id : RuleId) (rule : Rule) (w : Workspace) :
    setRule id rule w = (.ok (), { w with rules := w.rules.set id rule }) := rfl

end Task

/-- What a call with arguments gives, their number being checked first. -/
def Callable.gives (c : Callable) (arguments : List Value) : Outcome Product := do
  if c.isUnary then checkArguments c.name 0 ["value"] 0 arguments.length
  c.run arguments

theorem Callable.run_of_gives {c : Callable} {arguments : List Value} {product : Product}
    (given : c.gives arguments = .ok product) : c.run arguments = .ok product := by
  simp only [Callable.gives] at given
  split at given
  · obtain ⟨_, _, run⟩ := Outcome.bind_ok given
    exact run
  · exact given

/-- A call at most notes that it is made. -/
theorem Callable.call_gives (c : Callable) (arguments : List Value) (w : Workspace) :
    ∃ seen, c.call arguments w = (c.gives arguments, { w with seen }) := by
  obtain ⟨id, name, label, isUnary, run⟩ := c
  cases isUnary with
  | false => cases label <;> exact ⟨_, rfl⟩
  | true =>
      simp only [Callable.call, Callable.gives, Task.bind_eq, Task.ofOutcome_eq, if_true]
      cases checkArguments name 0 ["value"] 0 arguments.length with
      | error fault => exact ⟨w.seen, rfl⟩
      | ok => cases label <;> exact ⟨_, rfl⟩

/-- A call with one value gives what the function gives; at most the call is noted. -/
theorem Callable.call_eq (c : Callable) (value : Value) (w : Workspace) :
    ∃ seen, c.call [value] w = (c.run [value], { w with seen }) := by
  obtain ⟨id, name, label, isUnary, run⟩ := c
  cases label <;> cases isUnary <;> exact ⟨_, rfl⟩

end FieldRules
