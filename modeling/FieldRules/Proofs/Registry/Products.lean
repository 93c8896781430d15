import FieldRules.Proofs.Registry.Making
import FieldRules.Proofs.Registry.Tables

/-! # What makers make

A maker gives a rule that exists, or makes a new one. Which of the two, and what the new one is like,
follows from the maker and its arguments alone; only the identity of a new rule depends on how many
there are already. So what a rule string comes to can be said without a store: it is fixed by the
tokens, wherever and however often they are made into rules.
-/

namespace FieldRules

variable {w : Workspace} {base rules rules' rules'' : RuleStore}

/-- Rules are added to a store; those that it had are as they were. -/
structure RuleStore.GrownIn (rules rules' : RuleStore) : Prop where
  next : rules.next ≤ rules'.next
  item : ∀ id < rules.next, rules'.item id = rules.item id

namespace RuleStore.GrownIn

theorem refl (rules : RuleStore) : rules.GrownIn rules := ⟨Nat.le_refl _, fun _ _ => rfl⟩

theorem trans (first : rules.GrownIn rules') (second : rules'.GrownIn rules'') :
    rules.GrownIn rules'' where
  next := Nat.le_trans first.next second.next
  item id below :=
    (second.item id (Nat.lt_of_lt_of_le below first.next)).trans (first.item id below)

theorem adding (rules : RuleStore) (rule : Rule) : rules.GrownIn (rules.add rule).2 where
  next := Nat.le_succ _
  item id below := by
    have old : id ≠ rules.next := Nat.ne_of_lt below
    simp [old]

end RuleStore.GrownIn

/-- A rule as it comes from a maker: one that exists, or a new one. -/
inductive MadeRule where
  | shared (id : RuleId)
  | fresh (rule : Rule)

namespace MadeRule

/-- Gives a made rule its identity. -/
def place : MadeRule → RuleStore → RuleId × RuleStore
  | shared id, rules => (id, rules)
  | fresh rule, rules => rules.add rule

/-- The rule that is made. -/
def rule (rules : RuleStore) : MadeRule → Rule
  | shared id => rules.item id
  | fresh rule => rule

/-- Whether a made rule exists, if it is not new. -/
def InUse (rules : RuleStore) : MadeRule → Prop
  | shared id => id < rules.next
  | fresh _ => True

theorem place_grown (made : MadeRule) (rules : RuleStore) : rules.GrownIn (made.place rules).2 := by
  cases made with
  | shared id => exact .refl rules
  | fresh rule => exact .adding rules rule

theorem place_item (made : MadeRule) (rules : RuleStore) :
    (made.place rules).2.item (made.place rules).1 = made.rule rules := by
  cases made with
  | shared id => rfl
  | fresh rule => simp [place, MadeRule.rule, Shelf.add]

theorem InUse.mono {made : MadeRule} (used : made.InUse rules) (more : rules.next ≤ rules'.next) :
    made.InUse rules' := by
  cases made with
  | shared id => exact Nat.lt_of_lt_of_le used more
  | fresh rule => trivial

/-- A made rule exists once it has its identity. -/
theorem InUse.place_lt {made : MadeRule} (used : made.InUse rules) :
    (made.place rules).1 < (made.place rules).2.next := by
  cases made with
  | shared id => exact used
  | fresh rule => exact Nat.lt_succ_self _

end MadeRule

/-- What a rule of a later store is, seen from an earlier one. -/
def RuleStore.described (base rules : RuleStore) (id : RuleId) : MadeRule :=
  if id < base.next then .shared id else .fresh (rules.item id)

/-- Seen from any store in which it can exist, a rule is what it was made as. -/
theorem MadeRule.described_place {made : MadeRule} (used : made.InUse base)
    (before : base.next ≤ rules.next) (grown : (made.place rules).2.GrownIn rules') :
    base.described rules' (made.place rules).1 = made := by
  cases made with
  | shared id => exact if_pos used
  | fresh rule =>
      have new : ¬rules.next < base.next := by omega
      have added : rules'.item rules.next = rule := by
        rw [grown.item rules.next (Nat.lt_succ_self _)]
        simp [place]
      simp only [RuleStore.described, place, Shelf.add, new, if_false, added]

/-! ## Calls -/

/-- A product as a rule, or else the name of its type. -/
def Product.made : Product → MadeRule ⊕ String
  | shared id => .inl (.shared id)
  | fresh rule => .inl (.fresh rule)
  | value v => .inr v.typeName
  | foreign typeName => .inr typeName

theorem Product.rule?_eq (product : Product) (w : Workspace) :
    product.rule? w =
      match product.made with
      | .inl made => (.ok (.inl (made.place w.rules).1), { w with rules := (made.place w.rules).2 })
      | .inr typeName => (.ok (.inr typeName), w) := by
  cases product <;> rfl

theorem Product.made_inUse {product : Product} (used : product.InUse rules) {made : MadeRule}
    (given : product.made = .inl made) : made.InUse rules := by
  cases product with
  | shared id =>
      obtain rfl := Sum.inl.inj given
      exact used
  | fresh rule =>
      obtain rfl := Sum.inl.inj given
      trivial
  | value | foreign => cases given

namespace Factory

/-- What a maker gives for arguments. -/
def product (arguments : List Value) : Factory → Outcome Product
  | shared id => .ok (.shared id)
  | ofClass c => (c.build arguments).map .fresh
  | callable c => c.gives arguments

theorem make_eq (factory : Factory) (arguments : List Value) (w : Workspace) :
    ∃ seen, factory.make arguments w =
      match factory.product arguments with
      | .ok product => product.rule? { w with seen }
      | .error fault => (.error fault, { w with seen }) := by
  cases factory with
  | shared id => exact ⟨w.seen, rfl⟩
  | ofClass c =>
      refine ⟨w.seen, ?_⟩
      simp only [make, product, Task.bind_eq, Task.ofOutcome_eq]
      cases c.build arguments <;> rfl
  | callable c =>
      obtain ⟨seen, called⟩ := c.call_gives arguments w
      refine ⟨seen, ?_⟩
      simp only [make, product, Task.bind_eq, called]
      cases c.gives arguments <;> rfl

theorem product_inUse {factory : Factory} (used : factory.InUse rules) {arguments : List Value}
    {product : Product} (given : factory.product arguments = .ok product) :
    product.InUse rules := by
  cases factory with
  | shared id =>
      obtain rfl := Except.ok.inj given
      exact used
  | ofClass c =>
      obtain ⟨rule, _, rfl⟩ := Outcome.map_ok given
      trivial
  | callable c => exact used arguments product (Callable.run_of_gives given)

/-- The rule that a maker makes from arguments, or why it cannot. -/
def made (identifier : String) (arguments : List Value) : Factory → Outcome MadeRule
  | shared id =>
    if arguments.isEmpty then .ok (.shared id)
    else .error (.invalidRule (.instanceArguments identifier))
  | factory =>
    match factory.product arguments with
    | .error cause => .error (buildFault identifier arguments cause)
    | .ok product =>
      match product.made with
      | .inl made => .ok made
      | .inr typeName => .error (.invalidRule (.notARule identifier typeName))

theorem construct_eq (factory : Factory) (identifier : String) (arguments : List Value)
    (w : Workspace) :
    ∃ seen, factory.construct identifier arguments w =
      match factory.made identifier arguments with
      | .ok made =>
        (.ok (made.place w.rules).1, { w with rules := (made.place w.rules).2, seen })
      | .error fault => (.error fault, { w with seen }) := by
  obtain ⟨seen, called⟩ := factory.make_eq arguments w
  cases factory with
  | shared id =>
      refine ⟨w.seen, ?_⟩
      simp only [construct, made]
      split <;> rfl
  | ofClass | callable =>
      refine ⟨seen, ?_⟩
      simp only [construct, made, Task.bind_eq, Task.tryCatch_eq, called]
      generalize product arguments _ = outcome
      cases outcome with
      | error cause => rfl
      | ok product =>
          simp only [product.rule?_eq]
          cases product.made <;> rfl

theorem made_inUse {factory : Factory} (used : factory.InUse rules) {identifier : String}
    {arguments : List Value} {made : MadeRule}
    (given : factory.made identifier arguments = .ok made) : made.InUse rules := by
  have ofProduct (product : Product) (produced : factory.product arguments = .ok product)
      (rule : product.made = .inl made) : made.InUse rules :=
    Product.made_inUse (product_inUse used produced) rule
  cases factory with
  | shared id =>
      simp only [Factory.made] at given
      split at given
      · obtain rfl := Except.ok.inj given
        exact used
      · cases given
  | ofClass | callable =>
      simp only [Factory.made] at given
      split at given
      next => cases given
      next product produced =>
        split at given
        next rule =>
          obtain rfl := Except.ok.inj given
          exact ofProduct product produced rule
        next => cases given

end Factory

/-! ## Rule strings -/

/-- The rule that a token stands for. -/
def Token.made (token : Token) : Outcome MadeRule :=
  token.factory.made token.identifier (token.arguments.map .str)

namespace Registry

/-- What a rule string means to a registry: the tokens that are kept, or else those that its entries
    give. -/
def reading (registry : Registry) (spec : String) : Outcome (List Token) :=
  match registry.cache.get? spec with
  | some kept => .ok kept
  | none => registry.tokenize spec

theorem reading_inUse (closed : w.Closed) {spec : String} {read : List Token}
    (given : w.registry.reading spec = .ok read) :
    ∀ token ∈ read, token.factory.InUse w.rules := by
  have kept := (tokens_keeps closed spec).given read (by rwa [tokens_outcome])
  rwa [tokens_rules] at kept

theorem buildTokens_grown (tokens : List Token) (w : Workspace) :
    w.rules.GrownIn (buildTokens tokens w).2.rules := by
  induction tokens generalizing w with
  | nil => exact .refl w.rules
  | cons token rest ih =>
      obtain ⟨seen, built⟩ :=
        token.factory.construct_eq token.identifier (token.arguments.map .str) w
      simp only [buildTokens, Token.build, Task.bind_eq, built]
      cases token.factory.made token.identifier (token.arguments.map .str) with
      | error fault => exact .refl w.rules
      | ok made =>
          have first := made.place_grown w.rules
          have later := ih { w with rules := (made.place w.rules).2, seen }
          simp only
          rcases ran : buildTokens rest { w with rules := (made.place w.rules).2, seen }
            with ⟨fault | ids, w'⟩
          · rw [ran] at later
            exact first.trans later
          · rw [ran] at later
            exact first.trans later

/-- The rules of tokens are what the tokens stand for, seen from any store in which all that these
    share exists. -/
theorem buildTokens_described {tokens : List Token}
    (used : ∀ token ∈ tokens, token.factory.InUse base) (before : base.next ≤ w.rules.next) :
    (buildTokens tokens w).1.map (List.map (base.described (buildTokens tokens w).2.rules)) =
      tokens.mapM Token.made := by
  induction tokens generalizing w with
  | nil => rfl
  | cons token rest ih =>
      obtain ⟨firstUsed, restUsed⟩ := List.forall_mem_cons.mp used
      obtain ⟨seen, built⟩ :=
        token.factory.construct_eq token.identifier (token.arguments.map .str) w
      simp only [buildTokens, Token.build, Task.bind_eq, built, List.mapM_cons, Token.made]
      cases given : token.factory.made token.identifier (token.arguments.map .str) with
      | error fault => rfl
      | ok made =>
          have madeUsed := Factory.made_inUse firstUsed given
          have grown := made.place_grown w.rules
          have later := @ih { w with rules := (made.place w.rules).2, seen } restUsed
            (Nat.le_trans before grown.next)
          have after := buildTokens_grown rest { w with rules := (made.place w.rules).2, seen }
          simp only [bind, Except.bind] at later ⊢
          rw [← later]
          rcases ran : buildTokens rest { w with rules := (made.place w.rules).2, seen }
            with ⟨fault | ids, w'⟩
          · rfl
          · rw [ran] at after
            have first := made.described_place madeUsed before after
            simp only [Task.pure_eq, Except.map, List.map_cons, first]
            rfl

end Registry

/-- The rules that a rule string is made into, told apart from those that existed. -/
def Workspace.parsed (w : Workspace) (spec : String) : Outcome (List MadeRule) :=
  let made := Registry.parse spec w
  made.1.map (List.map (w.rules.described made.2.rules))

theorem Workspace.parsed_eq (closed : w.Closed) (spec : String) :
    w.parsed spec = (w.registry.reading spec).bind (·.mapM Token.made) := by
  have outcome : (Registry.tokens spec w).1 = w.registry.reading spec :=
    Registry.tokens_outcome spec w
  have same := Registry.tokens_rules spec w
  simp only [parsed, Registry.parse]
  rw [Task.bind_eq, ← outcome]
  rcases ran : Registry.tokens spec w with ⟨fault | read, w'⟩
  · rfl
  · rw [ran] at outcome same
    exact Registry.buildTokens_described (Registry.reading_inUse closed outcome.symm)
      (Nat.le_of_eq (congrArg Shelf.next same.symm))

end FieldRules
