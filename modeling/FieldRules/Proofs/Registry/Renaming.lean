import FieldRules.Proofs.Registry.Effects

/-! # Rules under other identities

In another session the same rule may have another identity. Renaming exchanges the identities in all
that a registry holds and in all that is done with it. Operations commute with that, as long as the
rules that they name are alike: a registry looks at names and makers, never at identities. So all
that can be seen of it is the same up to renaming.
-/

namespace FieldRules

variable {rules rules' : RuleStore}

/-! ## Renaming -/

section

variable (f : RuleId → RuleId)

def Product.renamed : Product → Product
  | .shared id => .shared (f id)
  | .fresh rule => .fresh rule
  | .value v => .value v
  | .foreign typeName => .foreign typeName

/-- The same function where rules have other identities. -/
def Callable.renamed (c : Callable) : Callable :=
  { c with run := fun arguments => (c.run arguments).map (Product.renamed f) }

def MadeRule.renamed : MadeRule → MadeRule
  | .shared id => .shared (f id)
  | .fresh rule => .fresh rule

def Factory.renamed : Factory → Factory
  | .shared id => .shared (f id)
  | .ofClass c => .ofClass c
  | .callable c => .callable (c.renamed f)

mutual

def Written.renamed : Written → Written
  | .rule id => .rule (f id)
  | .callable c => .callable (c.renamed f)
  | .ofClass c => .ofClass c
  | .value v => .value v
  | .list items => .list (Written.allRenamed items)
  | .tuple items => .tuple (Written.allRenamed items)

def Written.allRenamed : List Written → List Written
  | [] => []
  | written :: rest => written.renamed :: Written.allRenamed rest

end

def Token.renamed (token : Token) : Token := { token with factory := token.factory.renamed f }

namespace Registry

def renamed (registry : Registry) : Registry :=
  { registry with
    entries := registry.entries.mapped (Factory.renamed f)
    cache := registry.cache.mapped (List.map (Token.renamed f)) }

/-- An entry to be registered, under its identifier if it has one. -/
def renamedEntry (entry : Option String × Written) : Option String × Written :=
  (entry.1, entry.2.renamed f)

namespace Operation

def renamed : Operation → Operation
  | register written identifier => register (written.renamed f) identifier
  | extend entries => extend (entries.map (renamedEntry f))
  | parse spec => parse spec
  | read spec => read spec
  | clear => clear

/-- Whether the rules that an operation names are alike in two stores, apart from the codes that
    they have recorded. -/
def AlikeIn (rules rules' : RuleStore) (operation : Operation) : Prop :=
  ∀ entry ∈ operation.entries, ∀ id, entry.2.Gives id →
    (rules'.item (f id)).cleared = (rules.item id).cleared

end Operation

end Registry

end

variable {f : RuleId → RuleId}

/-- Steps that commute with a change of what they are done on do so one after the other. -/
theorem Outcome.mapM_commute {α β α' β' : Type} {step : α → Outcome β} {step' : α' → Outcome β'}
    {g : α → α'} {h : β → β'} {as : List α} (commute : ∀ a ∈ as, step' (g a) = (step a).map h) :
    (as.map g).mapM step' = (as.mapM step).map (List.map h) := by
  induction as with
  | nil => rfl
  | cons a rest ih =>
      obtain ⟨first, others⟩ := List.forall_mem_cons.mp commute
      rw [List.map_cons, List.mapM_cons, List.mapM_cons, first, ih others]
      cases step a with
      | error fault => rfl
      | ok b => cases rest.mapM step <;> rfl

/-! ## Makers -/

theorem Callable.gives_renamed (c : Callable) (arguments : List Value) :
    (c.renamed f).gives arguments = (c.gives arguments).map (Product.renamed f) := by
  obtain ⟨id, name, label, isUnary, run⟩ := c
  cases isUnary with
  | false => rfl
  | true =>
      simp only [Callable.gives, Callable.renamed, if_true]
      cases checkArguments name 0 ["value"] 0 arguments.length <;> rfl

namespace Factory

theorem made_renamed (factory : Factory) (identifier : String) (arguments : List Value) :
    (factory.renamed f).made identifier arguments =
      (factory.made identifier arguments).map (MadeRule.renamed f) := by
  cases factory with
  | shared id =>
      simp only [renamed, made]
      split <;> rfl
  | ofClass c =>
      simp only [renamed, made, product]
      cases c.build arguments <;> rfl
  | callable c =>
      simp only [renamed, made, product, c.gives_renamed]
      cases c.gives arguments with
      | error fault => rfl
      | ok product => cases product <;> rfl

theorem instantiated_renamed (factory : Factory) :
    (factory.renamed f).instantiated rules' =
      (factory.instantiated rules).map (MadeRule.renamed f) := by
  cases factory with
  | shared id => rfl
  | ofClass c =>
      simp only [renamed, instantiated, product]
      cases c.build [] <;> rfl
  | callable c =>
      simp only [renamed, instantiated, product, c.gives_renamed]
      cases c.gives [] with
      | error fault => rfl
      | ok product => cases product <;> rfl

/-- An identifier follows from a rule whatever it has recorded. -/
theorem identifier_cleared (rule : Rule) : rule.cleared.identifier = rule.identifier := rfl

theorem identifier_renamed {factory : Factory}
    (alike : ∀ id, factory.Gives id → (rules'.item (f id)).cleared = (rules.item id).cleared) :
    (factory.renamed f).identifier rules' = factory.identifier rules := by
  rw [identifier, identifier, instantiated_renamed]
  cases made : factory.instantiated rules with
  | error fault => rfl
  | ok rule =>
      cases rule with
      | shared id =>
          -- A shared rule is looked up, where it is the same but for its codes.
          have same := alike id (instantiated_gives made)
          show (rules'.item (f id)).identifier = (rules.item id).identifier
          rw [← identifier_cleared, same, identifier_cleared]
      | fresh rule => rfl

theorem ofWritten_renamed (rules rules' : RuleStore) (written : Written) :
    ofWritten rules' (written.renamed f) = (ofWritten rules written).map (Factory.renamed f) := by
  cases written with
  | ofClass c => cases c <;> (simp only [Written.renamed, ofWritten]; rfl)
  | _ =>
      simp only [Written.renamed, ofWritten]
      rfl

end Factory

/-! ## Registries -/

namespace Registry

/-- An entry passes its check, or is refused for the same fault, under other identities. -/
theorem prepared_renamed {entry : Option String × Written}
    (alike : ∀ id, entry.2.Gives id → (rules'.item (f id)).cleared = (rules.item id).cleared) :
    prepared rules' (renamedEntry f entry) =
      (prepared rules entry).map fun passed => (passed.1, passed.2.renamed f) := by
  obtain ⟨identifier, written⟩ := entry
  simp only [prepared, renamedEntry, Factory.ofWritten_renamed rules rules']
  cases checked : Factory.ofWritten rules written with
  | error fault => rfl
  | ok factory =>
      have same := Factory.identifier_renamed fun id gives =>
        alike id (Factory.ofWritten_gives checked gives)
      cases identifier with
      | some text =>
          -- Both sides look at the given identifier, and only for whether it is empty.
          by_cases empty : text = ""
          · subst empty
            rfl
          · simp only [bind, Except.bind, Except.map]
            rfl
      | none =>
          simp only [bind, Except.bind, Except.map, same]
          cases factory.identifier rules <;> rfl

theorem adding_renamed (registry : Registry) (passed : List (String × Factory)) :
    (registry.renamed f).adding (Keyed.mapped (Factory.renamed f) passed) =
      (registry.adding passed).renamed f := by
  simp only [adding, renamed, Keyed.putAll_mapped]

theorem extended_renamed (registry : Registry) {entries : List (Option String × Written)}
    (alike : ∀ entry ∈ entries, ∀ id, entry.2.Gives id →
      (rules'.item (f id)).cleared = (rules.item id).cleared) :
    (registry.renamed f).extended rules' (entries.map (renamedEntry f)) =
      (registry.extended rules entries).renamed f := by
  have passing := Outcome.mapM_commute fun entry member => prepared_renamed (alike entry member)
  simp only [extended, passing]
  cases entries.mapM (prepared rules) with
  | error fault => rfl
  | ok passed => exact adding_renamed registry passed

theorem resolve_renamed (registry : Registry) (identifier : String) :
    (registry.renamed f).resolve identifier =
      (registry.resolve identifier).map (Factory.renamed f) := by
  simp only [resolve, renamed, Keyed.get?_mapped]
  cases registry.entries.get? identifier <;> rfl

theorem read_renamed (registry : Registry) (spec : String) (position : Nat) (piece : List Char) :
    Token.read (registry.renamed f) spec position piece =
      (Token.read registry spec position piece).map (Token.renamed f) := by
  simp only [Token.read, resolve_renamed]
  split
  · rfl
  · split
    · rfl
    · cases registry.resolve _ <;> rfl

theorem readAll_renamed (registry : Registry) (spec : String) (position : Nat)
    (pieces : List (List Char)) :
    Token.readAll (registry.renamed f) spec position pieces =
      (Token.readAll registry spec position pieces).map (List.map (Token.renamed f)) := by
  induction pieces generalizing position with
  | nil => rfl
  | cons piece rest ih =>
      simp only [Token.readAll, read_renamed, ih]
      cases Token.read registry spec position piece with
      | error fault => rfl
      | ok token => cases Token.readAll registry spec (position + 1) rest <;> rfl

theorem tokenize_renamed (registry : Registry) (spec : String) :
    (registry.renamed f).tokenize spec =
      (registry.tokenize spec).map (List.map (Token.renamed f)) :=
  readAll_renamed registry spec 0 _

theorem reading_renamed (registry : Registry) (spec : String) :
    (registry.renamed f).reading spec =
      (registry.reading spec).map (List.map (Token.renamed f)) := by
  have kept : (registry.renamed f).cache.get? spec =
      (registry.cache.get? spec).map (List.map (Token.renamed f)) := Keyed.get?_mapped ..
  simp only [reading, kept, tokenize_renamed]
  cases registry.cache.get? spec <;> rfl

theorem asked_renamed (registry : Registry) (spec : String) :
    (registry.renamed f).asked spec = (registry.asked spec).renamed f := by
  have kept : (registry.renamed f).cache.get? spec =
      (registry.cache.get? spec).map (List.map (Token.renamed f)) := Keyed.get?_mapped ..
  simp only [asked, kept, tokenize_renamed]
  cases registry.cache.get? spec with
  | some tokens => rfl
  | none =>
      cases registry.tokenize spec with
      | error fault => rfl
      | ok read => simp only [Option.map, Except.map, renamed, Keyed.put_mapped]

/-- An operation does the same to a registry under other identities. -/
theorem Operation.effect_renamed (registry : Registry) {operation : Operation}
    (alike : operation.AlikeIn f rules rules') :
    (operation.renamed f).effect rules' (registry.renamed f) =
      (operation.effect rules registry).renamed f := by
  cases operation with
  | register written identifier => exact extended_renamed registry alike
  | extend entries => exact extended_renamed registry alike
  | parse spec | read spec => exact asked_renamed registry spec
  | clear => rfl

end Registry

/-! ## The rules of a rule string -/

/-- Rule strings are made into the same rules under other identities. -/
theorem Registry.reading_made_renamed (registry : Registry) (spec : String) :
    ((registry.renamed f).reading spec).bind (·.mapM Token.made) =
      ((registry.reading spec).bind (·.mapM Token.made)).map (List.map (MadeRule.renamed f)) := by
  rw [reading_renamed]
  cases registry.reading spec with
  | error fault => rfl
  | ok read => exact Outcome.mapM_commute fun token _ => token.factory.made_renamed _ _

end FieldRules
