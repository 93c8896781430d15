import FieldRules.Proofs.Registry.History
import FieldRules.Proofs.Registry.Products

/-! # What operations come to

What an operation leaves of a registry follows from what the registry was and from the rules that
the operation names. It adds the entries that pass their check, or counts and keeps a rule string;
how many rules there are, what has been called and what was logged have no part in it. Rules that
are made on the way are new ones, so that those which exist stay as they are.
-/

namespace FieldRules

variable {w : Workspace} {rules rules' : RuleStore}

/-! ## What is named -/

/-- Whether a function gives back a rule that exists. -/
def Callable.Gives (id : RuleId) (c : Callable) : Prop :=
  ∃ arguments, c.run arguments = .ok (.shared id)

/-- Whether a maker gives a rule that exists. -/
def Factory.Gives (id : RuleId) : Factory → Prop
  | .shared own => own = id
  | .ofClass _ => False
  | .callable c => c.Gives id

/-- Whether what is written gives a rule that exists. Sequences are no makers, and so give none. -/
def Written.Gives (id : RuleId) : Written → Prop
  | .rule own => own = id
  | .callable c => c.Gives id
  | .ofClass _ | .value _ | .list _ | .tuple _ => False

/-- The identifier that follows from a rule, or why there is none. -/
def Rule.identifier (rule : Rule) : Outcome String := do
  if rule.name = "" then
    throw (.invalidRule (.nameless (← rule.kind.print)))
  return rule.name

namespace Factory

theorem inUse_iff {factory : Factory} :
    factory.InUse rules ↔ ∀ id, factory.Gives id → id < rules.next := by
  cases factory with
  | shared own =>
      refine ⟨fun used id same => ?_, fun below => below own rfl⟩
      obtain rfl : own = id := same
      exact used
  | ofClass c => exact ⟨fun _ id none => none.elim, fun _ => trivial⟩
  | callable c =>
      constructor
      · rintro used id ⟨arguments, given⟩
        exact used arguments _ given
      · intro below arguments product given
        cases product with
        | shared id => exact below id ⟨arguments, given⟩
        | fresh | value | foreign => trivial

theorem ofWritten_gives {written : Written} {factory : Factory}
    (checked : ofWritten rules written = .ok factory) {id : RuleId} (gives : factory.Gives id) :
    written.Gives id := by
  cases written with
  | rule own | callable c =>
      obtain rfl := Except.ok.inj checked
      exact gives
  | ofClass c =>
      cases c with
      | rules c =>
          obtain rfl := Except.ok.inj checked
          exact gives
      | abstract | «foreign» => cases checked
  | value | list | tuple => cases checked

/-- What is no maker is refused for its own sake, whatever rules there are. -/
theorem ofWritten_rules (rules rules' : RuleStore) (written : Written) :
    ofWritten rules' written = ofWritten rules written := by
  cases written with
  | ofClass c => cases c <;> rfl
  | _ => rfl

/-! ## Identifiers that follow from rules -/

/-- The rule that a maker makes without arguments, or why there is none. -/
def instantiated (rules : RuleStore) (factory : Factory) : Outcome MadeRule :=
  match factory.product [] with
  | .error cause =>
    .error (if cause.isRejection then .needsArguments (factory.name rules) cause else cause)
  | .ok product =>
    match product.made with
    | .inl made => .ok made
    | .inr typeName => .error (.invalidRule (.foreign typeName))

/-- The identifier that follows from what a maker makes, or why there is none. -/
def identifier (rules : RuleStore) (factory : Factory) : Outcome String :=
  (factory.instantiated rules).bind fun made => (made.rule rules).identifier

theorem instantiate_eq (factory : Factory) (w : Workspace) :
    ∃ seen, factory.instantiate w =
      match factory.instantiated w.rules with
      | .ok made =>
        (.ok (made.place w.rules).1, { w with rules := (made.place w.rules).2, seen })
      | .error fault => (.error fault, { w with seen }) := by
  obtain ⟨seen, called⟩ := factory.make_eq [] w
  refine ⟨seen, ?_⟩
  simp only [instantiate, instantiated, Task.bind_eq, Task.get_eq, Task.tryCatch_eq, called]
  cases factory.product [] with
  | error cause => rfl
  | ok product =>
      simp only [product.rule?_eq]
      cases product.made <;> rfl

theorem instantiated_rules (rules rules' : RuleStore) (factory : Factory) :
    factory.instantiated rules' = factory.instantiated rules := by
  cases factory <;> rfl

theorem instantiated_gives {factory : Factory} {id : RuleId}
    (made : factory.instantiated rules = .ok (.shared id)) : factory.Gives id := by
  simp only [instantiated] at made
  split at made
  next => cases made
  next product produced =>
    cases product with
    | shared own =>
        obtain rfl : own = id := MadeRule.shared.inj (Except.ok.inj made)
        cases factory with
        | shared own => exact Product.shared.inj (Except.ok.inj produced)
        | ofClass c =>
            obtain ⟨rule, _, other⟩ := Outcome.map_ok produced
            cases other
        | callable c => exact ⟨[], Callable.run_of_gives produced⟩
    | fresh => cases made
    | value | «foreign» => cases made

theorem identifier_grown {factory : Factory} (grown : rules.GrownIn rules')
    (used : ∀ id, factory.Gives id → id < rules.next) :
    factory.identifier rules' = factory.identifier rules := by
  simp only [identifier, instantiated_rules rules rules']
  cases made : factory.instantiated rules with
  | error fault => rfl
  | ok rule =>
      cases rule with
      | shared id =>
          have same := grown.item id (used id (instantiated_gives made))
          simp only [Except.bind, MadeRule.rule, same]
      | fresh rule => rfl

end Factory

namespace Registry

theorem derivedIdentifier_eq (factory : Factory) (w : Workspace) :
    ∃ rules seen,
      derivedIdentifier factory w = (factory.identifier w.rules, { w with rules, seen }) ∧
        w.rules.GrownIn rules := by
  obtain ⟨seen, ran⟩ := factory.instantiate_eq w
  simp only [derivedIdentifier, Task.bind_eq, ran, Factory.identifier]
  cases factory.instantiated w.rules with
  | error fault => exact ⟨w.rules, seen, rfl, .refl w.rules⟩
  | ok made =>
      refine ⟨(made.place w.rules).2, seen, ?_, made.place_grown w.rules⟩
      simp only [Task.ruleOf_eq, made.place_item, Except.bind, Rule.identifier]
      by_cases nameless : (made.rule w.rules).name = ""
      · simp only [nameless, if_true, Task.bind_eq, Task.ofOutcome_eq]
        cases (made.rule w.rules).kind.print <;> rfl
      · simp only [nameless, if_false]
        rfl

/-! ## Entries that pass their check -/

/-- An entry with its identifier, or why it cannot be registered. -/
def prepared (rules : RuleStore) (entry : Option String × Written) : Outcome (String × Factory) := do
  let factory ← Factory.ofWritten rules entry.2
  match entry.1 with
  | some "" => throw (.invalidRule .emptyIdentifier)
  | some identifier => return (identifier, factory)
  | none => return (← factory.identifier rules, factory)

theorem prepare_eq (written : Written) (identifier : Option String) (w : Workspace) :
    ∃ rules seen,
      prepare written identifier w =
          (prepared w.rules (identifier, written), { w with rules, seen }) ∧
        w.rules.GrownIn rules := by
  simp only [prepare, prepared, Task.bind_eq, Task.get_eq, Task.ofOutcome_eq]
  cases Factory.ofWritten w.rules written with
  | error fault => exact ⟨w.rules, w.seen, rfl, .refl w.rules⟩
  | ok factory =>
      cases identifier with
      | some text =>
          refine ⟨w.rules, w.seen, ?_, .refl w.rules⟩
          by_cases empty : text = ""
          · subst empty
            rfl
          · simp only [bind, Except.bind]
            rfl
      | none =>
          obtain ⟨rules, seen, derived, grown⟩ := derivedIdentifier_eq factory w
          refine ⟨rules, seen, ?_, grown⟩
          simp only
          rw [Task.bind_eq, derived]
          cases given : factory.identifier w.rules with
          | error fault => simp only [bind, Except.bind, given]
          | ok identifier =>
              simp only [bind, Except.bind, given]
              rfl

theorem prepared_grown {entry : Option String × Written} (grown : rules.GrownIn rules')
    (used : ∀ id, entry.2.Gives id → id < rules.next) :
    prepared rules' entry = prepared rules entry := by
  simp only [prepared, Factory.ofWritten_rules rules rules']
  cases checked : Factory.ofWritten rules entry.2 with
  | error fault => rfl
  | ok factory =>
      have same := Factory.identifier_grown grown fun id gives =>
        used id (Factory.ofWritten_gives checked gives)
      simp only [bind, Except.bind, same]

/-- The check settles the identifier and leaves the maker alone. -/
theorem prepared_factory {entry : Option String × Written} {passed : String × Factory}
    (given : prepared rules entry = .ok passed) :
    Factory.ofWritten rules entry.2 = .ok passed.2 := by
  obtain ⟨factory, checked, given⟩ := Outcome.bind_ok given
  have same : factory = passed.2 := by
    split at given
    · cases given
    · exact congrArg Prod.snd (Except.ok.inj given)
    · obtain ⟨identifier, _, given⟩ := Outcome.bind_ok given
      exact congrArg Prod.snd (Except.ok.inj given)
  rw [checked, same]

theorem prepared_inUse {entry : Option String × Written} {passed : String × Factory}
    (given : prepared rules entry = .ok passed) (used : ∀ id, entry.2.Gives id → id < rules.next) :
    passed.2.InUse rules := by
  rw [Factory.inUse_iff]
  exact fun id gives => used id (Factory.ofWritten_gives (prepared_factory given) gives)

theorem mapM_prepared_grown {entries : List (Option String × Written)} (grown : rules.GrownIn rules')
    (used : ∀ entry ∈ entries, ∀ id, entry.2.Gives id → id < rules.next) :
    entries.mapM (prepared rules') = entries.mapM (prepared rules) := by
  induction entries with
  | nil => rfl
  | cons entry rest ih =>
      obtain ⟨firstUsed, restUsed⟩ := List.forall_mem_cons.mp used
      simp only [List.mapM_cons, prepared_grown grown firstUsed, ih restUsed]

/-- The rules that are made for the first entries have no part in the check of the others. -/
theorem prepareAll_eq {entries : List (Option String × Written)} {w : Workspace}
    (used : ∀ entry ∈ entries, ∀ id, entry.2.Gives id → id < w.rules.next) :
    ∃ rules seen, prepareAll entries w = (entries.mapM (prepared w.rules), { w with rules, seen }) ∧
      w.rules.GrownIn rules := by
  induction entries generalizing w with
  | nil => exact ⟨w.rules, w.seen, rfl, .refl w.rules⟩
  | cons entry rest ih =>
      obtain ⟨identifier, written⟩ := entry
      obtain ⟨_, restUsed⟩ := List.forall_mem_cons.mp used
      obtain ⟨rules, seen, first, grown⟩ := prepare_eq written identifier w
      rw [prepareAll_cons, first, List.mapM_cons]
      cases prepared w.rules (identifier, written) with
      | error fault => exact ⟨rules, seen, rfl, grown⟩
      | ok passed =>
          -- The others are checked where rules have been made, but they name only older ones.
          have later : ∀ entry ∈ rest, ∀ id, entry.2.Gives id → id < rules.next :=
            fun entry member id gives =>
              Nat.lt_of_lt_of_le (restUsed entry member id gives) grown.next
          obtain ⟨rules', seen', others, grown'⟩ := @ih { w with rules, seen } later
          have same : rest.mapM (prepared rules) = rest.mapM (prepared w.rules) :=
            mapM_prepared_grown grown restUsed
          refine ⟨rules', seen', ?_, grown.trans grown'⟩
          simp only [others, same]
          cases rest.mapM (prepared w.rules) <;> rfl

/-! ## Operations -/

/-- What asking for a rule string leaves of a registry. -/
def asked (spec : String) (registry : Registry) : Registry :=
  match registry.cache.get? spec with
  | some _ => { registry with hits := registry.hits + 1 }
  | none =>
    match registry.tokenize spec with
    | .error _ => { registry with misses := registry.misses + 1 }
    | .ok read =>
      { registry with misses := registry.misses + 1, cache := registry.cache.put spec read }

theorem tokens_asked (spec : String) (w : Workspace) :
    (tokens spec w).2.registry = w.registry.asked spec := by
  simp only [asked]
  cases cached : w.registry.cache.get? spec with
  | some kept => rw [tokens_cached cached]
  | none =>
      rw [tokens_uncached cached]
      cases w.registry.tokenize spec <;> rfl

/-- A registry with the entries that pass, or as it was if one does not. -/
def extended (rules : RuleStore) (entries : List (Option String × Written)) (registry : Registry) :
    Registry :=
  match entries.mapM (prepared rules) with
  | .ok passed => registry.adding passed
  | .error _ => registry

theorem extended_cache (registry : Registry) (entries : List (Option String × Written)) :
    (registry.extended rules entries).cache = registry.cache := by
  simp only [extended]
  split <;> rfl

theorem extended_inUse {registry : Registry} {entries : List (Option String × Written)}
    (closed : ∀ row ∈ registry.entries, row.2.InUse rules)
    (used : ∀ entry ∈ entries, ∀ id, entry.2.Gives id → id < rules.next) :
    ∀ row ∈ (registry.extended rules entries).entries, row.2.InUse rules := by
  simp only [extended]
  split
  next passed given =>
    intro row member
    rcases Keyed.mem_putAll member with old | new
    · exact closed row old
    · obtain ⟨entry, inside, passed⟩ := Outcome.mapM_ok given new
      exact prepared_inUse passed (used entry inside)
  next => exact closed

namespace Operation

/-- The entries that an operation is to register. -/
def entries : Operation → List (Option String × Written)
  | register written identifier => [(identifier, written)]
  | extend entries => entries
  | parse _ | read _ | clear => []

/-- Whether the rules exist that an operation names. -/
def InUse (rules : RuleStore) (operation : Operation) : Prop :=
  ∀ entry ∈ operation.entries, ∀ id, entry.2.Gives id → id < rules.next

/-- What an operation leaves of a registry, by the rules that there are. -/
def effect (rules : RuleStore) (registry : Registry) : Operation → Registry
  | register written identifier => registry.extended rules [(identifier, written)]
  | extend entries => registry.extended rules entries
  | parse spec | read spec => registry.asked spec
  | clear => registry.clearCache

/-- What an operation does to the registry is its effect, and the rules that exist stay. -/
theorem perform_effect {operation : Operation} (used : operation.InUse w.rules) :
    (operation.perform w).registry = operation.effect w.rules w.registry ∧
      w.rules.GrownIn (operation.perform w).rules := by
  cases operation with
  | register written identifier =>
      obtain ⟨rules, seen, checked, grown⟩ := prepare_eq written identifier w
      simp only [perform, effect, extended, register_eq, checked, List.mapM_cons, List.mapM_nil]
      cases prepared w.rules (identifier, written) with
      | error fault => exact ⟨rfl, grown⟩
      | ok passed => exact ⟨rfl, grown⟩
  | extend entries =>
      obtain ⟨rules, seen, checked, grown⟩ := @prepareAll_eq entries w used
      simp only [perform, effect, extended]
      rw [extend_eq, checked]
      cases entries.mapM (prepared w.rules) with
      | error fault => exact ⟨rfl, grown⟩
      | ok passed => exact ⟨rfl, grown⟩
  | parse spec =>
      refine ⟨(parse_registry spec w).trans (tokens_asked spec w), ?_⟩
      rw [← tokens_rules spec w, perform, Registry.parse, Task.bind_eq]
      rcases tokens spec w with ⟨fault | read, w'⟩
      · exact .refl w'.rules
      · exact buildTokens_grown read w'
  | read spec =>
      refine ⟨tokens_asked spec w, ?_⟩
      rw [perform, tokens_rules]
      exact .refl w.rules
  | clear => exact ⟨rfl, .refl w.rules⟩

/-- Everything exists that a registry names after an operation too. -/
theorem perform_closed (closed : w.Closed) {operation : Operation}
    (used : operation.InUse w.rules) : (operation.perform w).Closed := by
  obtain ⟨same, grown⟩ := perform_effect used
  -- Registering and extending differ only in how many entries there are.
  have adding (entries : List (Option String × Written))
      (entriesUsed : ∀ entry ∈ entries, ∀ id, entry.2.Gives id → id < w.rules.next)
      (effect : (operation.perform w).registry = w.registry.extended w.rules entries) :
      (operation.perform w).Closed := by
    constructor
    · rw [effect]
      exact fun row member => (extended_inUse closed.entries entriesUsed row member).mono grown.next
    · rw [effect, extended_cache]
      exact fun row member token inside => (closed.cache row member token inside).mono grown.next
  cases operation with
  | register written identifier => exact adding _ used same
  | extend entries => exact adding _ used same
  | parse spec => exact (parse_keeps closed spec).closed
  | read spec => exact (tokens_keeps closed spec).closed
  | clear => exact ⟨closed.entries, fun row member => nomatch member⟩

end Operation

end Registry

end FieldRules
