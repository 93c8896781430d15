import FieldRules.Proofs.Registry.Effects

/-! # What a registry can be asked for

Entries are checked when they are registered, so nothing has to be checked when a rule is asked for.
Every operation leaves a registry well-formed, whether it succeeds or faults. What can still go
wrong then is told by `Building`, case by case: it is a matter of what the maker does with the
arguments and of what it gives. There is one case beside these, `Unreported`: a rejection that is
lost because its report cannot be written. -/

namespace FieldRules

variable {w : Workspace} {rules rules' : RuleStore}

/-! ## Well-formed registries -/

theorem Rule.identifier_named {rule : Rule} {name : String} (given : rule.identifier = .ok name) :
    name ≠ "" := by
  unfold identifier at given
  by_cases nameless : rule.name = ""
  · rw [if_pos nameless] at given
    cases printed : rule.kind.print <;> rw [printed] at given <;> cases given
  · rw [if_neg nameless] at given
    cases given
    exact nameless

namespace Registry

/-- The entries of a registry have distinct identifiers that are not empty. An entry is a rule, a
    class of rules or a function, and what it names exists. -/
structure WellFormed (rules : RuleStore) (registry : Registry) : Prop where
  distinct : registry.entries.names.Nodup
  named : ∀ identifier ∈ registry.entries.names, identifier ≠ ""
  used : ∀ row ∈ registry.entries, row.2.InUse rules

theorem WellFormed.mono {registry : Registry} (formed : registry.WellFormed rules)
    (more : rules.next ≤ rules'.next) : registry.WellFormed rules' where
  distinct := formed.distinct
  named := formed.named
  used row member := (formed.used row member).mono more

theorem standard_wellFormed (rules : RuleStore) : standard.WellFormed rules where
  distinct := by decide
  named := by decide
  used row member := by
    obtain ⟨c, _, rfl⟩ := List.mem_map.mp member
    trivial

theorem empty_wellFormed (rules : RuleStore) : ({} : Registry).WellFormed rules where
  distinct := List.nodup_nil
  named _ none := absurd none List.not_mem_nil
  used _ none := absurd none List.not_mem_nil

/-- An entry that passes its check has an identifier. -/
theorem prepared_named {entry : Option String × Written} {passed : String × Factory}
    (given : prepared rules entry = .ok passed) : passed.1 ≠ "" := by
  obtain ⟨factory, _, given⟩ := Outcome.bind_ok given
  split at given
  next => cases given
  next identifier notEmpty _ =>
    cases given
    exact notEmpty
  next =>
    obtain ⟨identifier, follows, given⟩ := Outcome.bind_ok given
    cases given
    obtain ⟨made, _, rule⟩ := Outcome.bind_ok follows
    exact Rule.identifier_named rule

theorem WellFormed.extended {registry : Registry} (formed : registry.WellFormed rules)
    {entries : List (Option String × Written)}
    (used : ∀ entry ∈ entries, ∀ id, entry.2.Gives id → id < rules.next) :
    (registry.extended rules entries).WellFormed rules := by
  constructor
  · unfold Registry.extended
    split
    · exact Keyed.nodup_putAll formed.distinct _
    · exact formed.distinct
  · unfold Registry.extended
    split
    next passed given =>
      intro identifier member
      obtain ⟨row, inside, rfl⟩ := List.mem_map.mp member
      cases Keyed.mem_putAll inside with
      | inl old => exact formed.named row.1 (Keyed.mem_names old)
      | inr new =>
          obtain ⟨entry, _, checked⟩ := Outcome.mapM_ok given new
          exact prepared_named checked
    next => exact formed.named
  · exact extended_inUse formed.used used

/-- Every operation leaves a registry well-formed, whether it succeeds or faults. -/
theorem Operation.effect_wellFormed {registry : Registry} (formed : registry.WellFormed rules)
    {operation : Operation} (used : operation.InUse rules) :
    (operation.effect rules registry).WellFormed rules := by
  cases operation with
  | register written identifier => exact formed.extended used
  | extend entries => exact formed.extended used
  | parse spec | read spec =>
      have same : (registry.asked spec).entries = registry.entries := by
        unfold asked
        split
        · rfl
        · split <;> rfl
      exact ⟨same ▸ formed.distinct, same ▸ formed.named, same ▸ formed.used⟩
  | clear => exact ⟨formed.distinct, formed.named, formed.used⟩

end Registry

/-! ## Calls and their records -/

/-- The record of a call, if it is recorded. -/
def Callable.notes (c : Callable) (arguments : List Value) : List (String × Value) :=
  let taken := if c.isUnary then checkArguments c.name 0 ["value"] 0 arguments.length else .ok ()
  if taken.isOk then c.label.toList.map fun label => (label, arguments.headD .none) else []

theorem Callable.call_noted (c : Callable) (arguments : List Value) (w : Workspace) :
    c.call arguments w = (c.gives arguments, { w with seen := w.seen ++ c.notes arguments }) := by
  obtain ⟨id, name, label, isUnary, run⟩ := c
  cases isUnary with
  | false =>
      cases label with
      | none => simp [call, gives, notes, Task.ofOutcome_eq]
      | some label => rfl
  | true =>
      simp only [call, gives, notes, Task.bind_eq, Task.ofOutcome_eq, if_true]
      cases checkArguments name 0 ["value"] 0 arguments.length with
      | error fault => simp [Except.isOk, Except.toBool, bind, Except.bind]
      | ok =>
          cases label with
          | none => simp [Except.isOk, Except.toBool, bind, Except.bind, Task.ofOutcome_eq]
          | some label => rfl

namespace Factory

/-- The record of asking a maker. -/
def notes (arguments : List Value) : Factory → List (String × Value)
  | callable c => c.notes arguments
  | shared _ | ofClass _ => []

/-- Whether a maker is called: a rule that all share is not. -/
def IsCalled : Factory → Prop
  | shared _ => False
  | ofClass _ | callable _ => True

theorem make_noted (factory : Factory) (arguments : List Value) (w : Workspace) :
    factory.make arguments w =
      let called := { w with seen := w.seen ++ factory.notes arguments }
      match factory.product arguments with
      | .ok product => product.rule? called
      | .error fault => (.error fault, called) := by
  cases factory with
  | shared id => simp [make, product, notes, Product.rule?]
  | ofClass c =>
      simp only [make, product, notes, Task.bind_eq, Task.ofOutcome_eq, List.append_nil]
      cases c.build arguments <;> rfl
  | callable c =>
      simp only [make, product, notes, Task.bind_eq, c.call_noted]
      cases c.gives arguments <;> rfl

theorem construct_called {factory : Factory} (called : factory.IsCalled) (identifier : String)
    (arguments : List Value) (w : Workspace) :
    factory.construct identifier arguments w =
      match factory.make arguments w with
      | (.ok (.inl id), w') => (.ok id, w')
      | (.ok (.inr typeName), w') => (.error (.invalidRule (.notARule identifier typeName)), w')
      | (.error cause, w') => (.error (buildFault identifier arguments cause), w') := by
  cases factory with
  | shared id => exact called.elim
  | ofClass | callable =>
      simp only [construct, Task.bind_eq, Task.tryCatch_eq]
      rcases make _ arguments w with ⟨fault | id | typeName, w'⟩ <;> rfl

end Factory

/-! ## Asking for a rule -/

namespace Registry

/-- What comes of asking a registry for the rule of an identifier with arguments, and what it leaves
    behind. A maker that is called is called once, with the arguments. -/
inductive Building (w : Workspace) (identifier : String) (arguments : List Value) :
    Outcome RuleId → Workspace → Prop where
  /-- Nothing is registered under the identifier. -/
  | unknown (absent : w.registry.entries.has identifier = false) :
      Building w identifier arguments (.error (.unknownRule identifier)) w
  /-- A rule that all share is given as it is. -/
  | shared {id : RuleId} (found : w.registry.entries.get? identifier = some (.shared id))
      (bare : arguments = []) : Building w identifier arguments (.ok id) w
  | sharedRefused {id : RuleId} (found : w.registry.entries.get? identifier = some (.shared id))
      (some : arguments ≠ []) :
      Building w identifier arguments (.error (.invalidRule (.instanceArguments identifier))) w
  /-- The maker gives a rule, which is the result; if it is new, it exists from now on. -/
  | made {factory : Factory} {product : Product} {made : MadeRule}
      (found : w.registry.entries.get? identifier = some factory) (called : factory.IsCalled)
      (given : factory.product arguments = .ok product) (isRule : product.made = .inl made) :
      Building w identifier arguments (.ok (made.place w.rules).1)
        { w with
          rules := (made.place w.rules).2, seen := w.seen ++ factory.notes arguments }
  | noRule {factory : Factory} {product : Product} {typeName : String}
      (found : w.registry.entries.get? identifier = some factory) (called : factory.IsCalled)
      (given : factory.product arguments = .ok product) (isOther : product.made = .inr typeName) :
      Building w identifier arguments (.error (.invalidRule (.notARule identifier typeName)))
        { w with seen := w.seen ++ factory.notes arguments }
  /-- The maker rejects the arguments, which is reported together with them. -/
  | rejected {factory : Factory} {cause : Fault}
      (found : w.registry.entries.get? identifier = some factory) (called : factory.IsCalled)
      (given : factory.product arguments = .error cause) (rejects : cause.isRejection = true)
      (printable : (Value.list arguments).printed?.isSome = true) :
      Building w identifier arguments (.error (.buildFailed identifier arguments cause))
        { w with seen := w.seen ++ factory.notes arguments }
  /-- Any other fault of the maker is passed on. -/
  | passedOn {factory : Factory} {cause : Fault}
      (found : w.registry.entries.get? identifier = some factory) (called : factory.IsCalled)
      (given : factory.product arguments = .error cause) (other : cause.isRejection = false) :
      Building w identifier arguments (.error cause)
        { w with seen := w.seen ++ factory.notes arguments }

/-- The maker of an identifier rejects arguments that have no printed form: a whole number among
    them has too many digits for that. -/
structure Unreported (w : Workspace) (identifier : String) (arguments : List Value)
    (factory : Factory) : Prop where
  found : w.registry.entries.get? identifier = some factory
  called : factory.IsCalled
  rejects : ∃ cause, factory.product arguments = .error cause ∧ cause.isRejection = true
  unprintable : (Value.list arguments).printed?.isSome = false

/-- What comes of asking for a rule, be it one of the cases or a rejection without a report. -/
def Comes (w : Workspace) (identifier : String) (arguments : List Value)
    (ran : Outcome RuleId × Workspace) : Prop :=
  Building w identifier arguments ran.1 ran.2 ∨
    ∃ factory, Unreported w identifier arguments factory ∧
      ran = (.error .unprintable, { w with seen := w.seen ++ factory.notes arguments })

theorem comes_called {identifier : String} {arguments : List Value} {factory : Factory}
    (found : w.registry.entries.get? identifier = some factory) (called : factory.IsCalled) :
    Comes w identifier arguments (factory.construct identifier arguments w) := by
  rw [factory.construct_called called, factory.make_noted]
  cases given : factory.product arguments with
  | ok product =>
      simp only [product.rule?_eq]
      cases isRule : product.made with
      | inl made => exact .inl (.made found called given isRule)
      | inr typeName => exact .inl (.noRule found called given isRule)
  | error cause =>
      cases rejects : cause.isRejection with
      | false =>
          simp only [Factory.buildFault, rejects]
          exact .inl (.passedOn found called given rejects)
      | true =>
          cases printable : (Value.list arguments).printed?.isSome with
          | false =>
              simp only [Factory.buildFault, rejects, printable, if_true]
              exact .inr ⟨factory, ⟨found, called, ⟨cause, given, rejects⟩, printable⟩, rfl⟩
          | true =>
              simp only [Factory.buildFault, rejects, printable, if_true]
              exact .inl (.rejected found called given rejects printable)

theorem build_comes (identifier : String) (arguments : List Value) (w : Workspace) :
    Comes w identifier arguments (build identifier arguments w) := by
  simp only [build, resolve, Task.bind_eq, Task.get_eq]
  cases found : w.registry.entries.get? identifier with
  | none => exact .inl (.unknown (by simp [Keyed.has, found]))
  | some factory =>
      cases factory with
      | shared id =>
          cases arguments with
          | nil => exact .inl (.shared found rfl)
          | cons first rest => exact .inl (.sharedRefused found (List.cons_ne_nil _ _))
      | ofClass c => exact comes_called found trivial
      | callable c => exact comes_called found trivial

/-- The cases are all there is, but for a rejection without a report, which is none of them. -/
theorem building_iff {identifier : String} {arguments : List Value}
    {ran : Outcome RuleId × Workspace} (comes : Comes w identifier arguments ran) :
    Building w identifier arguments ran.1 ran.2 ↔
      ¬∃ factory, Unreported w identifier arguments factory := by
  constructor
  · rintro building ⟨factory, found, called, ⟨cause, given, rejects⟩, unprintable⟩
    have same {other : Factory} (found' : w.registry.entries.get? identifier = some other) :
        factory = other := Option.some.inj (found.symm.trans found')
    generalize ran.1 = outcome at building
    generalize ran.2 = left at building
    cases building with
    | unknown absent => simp [Keyed.has, found] at absent
    | shared found' | sharedRefused found' =>
        obtain rfl := same found'
        exact called
    | made found' _ given' | noRule found' _ given' =>
        obtain rfl := same found'
        cases given.symm.trans given'
    | rejected _ _ _ _ printable => cases unprintable.symm.trans printable
    | passedOn found' _ given' other =>
        obtain rfl := same found'
        obtain rfl := Except.error.inj (given.symm.trans given')
        cases rejects.symm.trans other
  · intro reported
    rcases comes with building | ⟨factory, unreported, _⟩
    · exact building
    · exact absurd ⟨factory, unreported⟩ reported

theorem Comes.unreported {identifier : String} {arguments : List Value} {factory : Factory}
    {ran : Outcome RuleId × Workspace} (comes : Comes w identifier arguments ran)
    (unreported : Unreported w identifier arguments factory) :
    ran = (.error .unprintable, { w with seen := w.seen ++ factory.notes arguments }) := by
  have lost := mt (building_iff comes).mp (not_not_intro ⟨factory, unreported⟩)
  obtain ⟨other, unreported', same⟩ := comes.resolve_left lost
  obtain rfl := Option.some.inj (unreported.found.symm.trans unreported'.found)
  exact same

/-- Asking for a rule leaves the registry alone and the rules that there are. -/
theorem Comes.left {identifier : String} {arguments : List Value}
    {ran : Outcome RuleId × Workspace} (comes : Comes w identifier arguments ran) :
    ran.2.registry = w.registry ∧ w.rules.GrownIn ran.2.rules := by
  rcases comes with building | ⟨factory, _, rfl⟩
  · generalize ran.1 = outcome at building
    generalize ran.2 = left at building
    cases building with
    | made => exact ⟨rfl, MadeRule.place_grown _ _⟩
    | _ => exact ⟨rfl, .refl w.rules⟩
  · exact ⟨rfl, .refl w.rules⟩

/-- The rule that is given exists. -/
theorem Comes.exists {identifier : String} {arguments : List Value}
    {ran : Outcome RuleId × Workspace} (comes : Comes w identifier arguments ran)
    (formed : w.registry.WellFormed w.rules) {id : RuleId} (given : ran.1 = .ok id) :
    id < ran.2.rules.next := by
  obtain ⟨outcome, left⟩ := ran
  obtain rfl : outcome = .ok id := given
  rcases comes with building | ⟨_, _, same⟩
  · cases building with
    | shared found bare => exact formed.used _ (Keyed.mem_of_get? found)
    | made found called given isRule =>
        have used := formed.used _ (Keyed.mem_of_get? found)
        have madeUsed := Product.made_inUse (Factory.product_inUse used given) isRule
        exact madeUsed.place_lt
  · cases congrArg Prod.fst same

/-- That an entry is no maker, or an abstract one, is never what is wrong. -/
theorem Comes.invalid {identifier : String} {arguments : List Value}
    {ran : Outcome RuleId × Workspace} (comes : Comes w identifier arguments ran)
    {defect : RuleDefect} (faulted : ran.1 = .error (.invalidRule defect)) :
    defect = .instanceArguments identifier ∨ (∃ typeName, defect = .notARule identifier typeName) ∨
      ∃ factory, w.registry.entries.get? identifier = some factory ∧
        factory.product arguments = .error (.invalidRule defect) := by
  obtain ⟨outcome, left⟩ := ran
  obtain rfl : outcome = .error (.invalidRule defect) := faulted
  rcases comes with building | ⟨_, _, same⟩
  · cases building with
    | sharedRefused found some => exact .inl rfl
    | noRule found called given isOther => exact .inr (.inl ⟨_, rfl⟩)
    | passedOn found called given other => exact .inr (.inr ⟨_, found, given⟩)
  · cases congrArg Prod.fst same

end Registry

end FieldRules
