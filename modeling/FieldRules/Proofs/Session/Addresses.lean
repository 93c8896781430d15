import FieldRules.Proofs.Session.Freshness
import FieldRules.Proofs.Validation.Overrides

/-! # Rules by the identifiers they are built from

An entry that is registered without an identifier gets the name of the rule that it makes on trial.
Every rule that is built from the entry later on has that name too, and a rule that is not
registered itself is addressed by its name. So overrides that are written with the identifier find
the rules of rule strings, although no registry knows these rules.

`perform_name` is the step: a rule keeps its name under all that is done, unless it is renamed.
-/

namespace FieldRules

variable {s : Session} {id : RuleId} {w : Workspace} {identifier : String}

/-! ## Rules keep their names -/

namespace RuleUse

/-- Whether a use changes a rule in a way that can give it another name. -/
def Renames (id : RuleId) : RuleUse → Prop
  | change own f => own = id ∧ ∃ rule, (f rule).name ≠ rule.name
  | _ => False

theorem perform_name {use : RuleUse} (proper : use.Proper s) (kept : ¬use.Renames id)
    (existing : id < s.rules.next) :
    ((use.perform s).rules.item id).name = (s.rules.item id).name := by
  cases use with
  | ofRegistry own =>
      exact congrArg Rule.name ((RegistryUse.perform_grown proper).item id existing)
  | make rule =>
      exact congrArg Rule.name ((RuleStore.GrownIn.adding s.rules rule).item id existing)
  | build r identifier arguments =>
      have grown := (Registry.build_comes identifier arguments (s.workspace r)).left.2
      exact congrArg Rule.name (grown.item id existing)
  | change own f =>
      by_cases here : id = own
      · subst here
        have same : (f (s.rules.item id)).name = (s.rules.item id).name := by
          by_contra other
          exact kept ⟨rfl, s.rules.item id, other⟩
        exact (congrArg Rule.name (if_pos rfl)).trans same
      · exact congrArg Rule.name (if_neg here)
  | check own value =>
      by_cases here : id = own
      · subst here
        have checked : ((check id value).perform s).rules.item id =
            ((s.rules.item id).check value).2 := if_pos rfl
        rw [checked]
        rfl
      · exact congrArg Rule.name (if_neg here)

theorem after_name {history : List RuleUse} (proper : AllProper s history)
    (kept : ∀ use ∈ history, ¬use.Renames id) (existing : id < s.rules.next) :
    ((after s history).rules.item id).name = (s.rules.item id).name := by
  let same (s' : Session) : Prop :=
    id < s'.rules.next ∧ (s'.rules.item id).name = (s.rules.item id).name
  have every : same (after s history) := by
    apply after_invariant _ proper ⟨existing, rfl⟩
    intro use member s' isProper before
    refine ⟨Nat.lt_of_lt_of_le before.1 (perform_next isProper), ?_⟩
    exact (perform_name isProper (kept use member) before.1).trans before.2
  exact every.2

end RuleUse

/-! ## Identifiers from names -/

theorem Rule.identifier_name {rule : Rule} (given : rule.identifier = .ok identifier) :
    rule.name = identifier := by
  unfold Rule.identifier at given
  split at given
  next =>
    obtain ⟨printed, _, other⟩ := Outcome.bind_ok given
    cases other
  next => exact Except.ok.inj given

/-- A maker that gives no rule that exists makes a new one of the name that its identifier is. -/
theorem Factory.identifier_fresh {factory : Factory} {rules : RuleStore}
    (derived : factory.identifier rules = .ok identifier) (anew : ∀ other, ¬factory.Gives other) :
    identifier ≠ "" ∧
      ∃ rule, factory.product [] = .ok (.fresh rule) ∧ rule.name = identifier := by
  obtain ⟨made, tried, named⟩ := Outcome.bind_ok derived
  refine ⟨Rule.identifier_named named, ?_⟩
  cases made with
  | shared other => exact absurd (instantiated_gives tried) (anew other)
  | fresh rule =>
      refine ⟨rule, ?_, Rule.identifier_name named⟩
      simp only [instantiated] at tried
      split at tried
      next => cases tried
      next product produced =>
        cases product with
        | fresh own =>
            obtain rfl : own = rule := MadeRule.fresh.inj (Except.ok.inj tried)
            exact produced
        | shared | value | «foreign» => cases tried

namespace Registry

/-- What is registered without an identifier is there under the one that follows from it. -/
theorem register_derived {written : Written}
    (registered : (register written none w).1 = .ok identifier) :
    ∃ factory, Factory.ofWritten w.rules written = .ok factory ∧
      factory.identifier w.rules = .ok identifier ∧
      (register written none w).2.registry.entries.get? identifier = some factory := by
  obtain ⟨rules, seen, checked, -⟩ := prepare_eq written none w
  rw [register_eq, checked] at registered ⊢
  cases given : prepared w.rules (none, written) with
  | error fault =>
      rw [given] at registered
      cases registered
  | ok passed =>
      rw [given] at registered
      obtain rfl : passed.1 = identifier := Except.ok.inj registered
      refine ⟨passed.2, prepared_factory given, ?_, ?_⟩
      · obtain ⟨factory, _, given⟩ := Outcome.bind_ok given
        obtain ⟨derived, follows, given⟩ := Outcome.bind_ok given
        cases given
        exact follows
      · exact Keyed.get?_putAll_last w.registry.entries [] passed.1 passed.2

/-- A new rule is built from an entry that makes one. -/
theorem build_fresh {factory : Factory} {arguments : List Value} {rule : Rule}
    (found : w.registry.entries.get? identifier = some factory)
    (makes : factory.product arguments = .ok (.fresh rule)) :
    ∃ seen, build identifier arguments w =
      (.ok w.rules.next, { w with rules := (w.rules.add rule).2, seen }) := by
  have made : factory.made identifier arguments = .ok (.fresh rule) := by
    cases factory with
    | shared own => cases makes
    | ofClass | callable => simp only [Factory.made, makes, Product.made]
  obtain ⟨seen, constructed⟩ := factory.construct_eq identifier arguments w
  refine ⟨seen, ?_⟩
  rw [made] at constructed
  simp only [build, resolve, found, Task.bind_eq, Task.get_eq, Task.ofOutcome_eq]
  exact constructed

end Registry

/-! ## Addresses -/

namespace Resolver

open Session

variable {resolver : Resolver} {label : String} {recorded : Int}

/-- Whether a rule is itself registered where a resolver looks for its identifier. -/
def Knows (resolver : Resolver) (s : Session) (id : RuleId) : Prop :=
  ∃ r, resolver.registry = some r ∧ ∃ entry ∈ (s.registries.item r).entries, entry.2 = .shared id

/-- A rule that is not registered itself is addressed by its name. -/
theorem ruleKey_name (unknown : ¬resolver.Knows s id) (named : (s.rules.item id).name ≠ "")
    (recorded : Int) :
    (ruleKey resolver id recorded s).1 = .ok (.name (s.rules.item id).name) := by
  have unregistered : ∀ registry ∈ resolver.registry.map s.registries.item,
      ∀ entry ∈ registry.entries, entry.2 ≠ .shared id := by
    intro registry looked entry member shared
    obtain ⟨r, given, rfl⟩ := Option.map_eq_some_iff.mp looked
    exact unknown ⟨r, given, entry, member, shared⟩
  show Except.ok (RuleKey.ofRule _ s.rules id recorded) = _
  rw [RuleKey.ofRule_unregistered unregistered, if_neg named]

/-- Whether the overrides of an attribute for an identifier are looked up for a rule, when messages
    are chosen for its last check. -/
structure LooksUp (resolver : Resolver) (s : Session) (label identifier : String) (id : RuleId)
    (recorded : Int) : Prop where
  /-- What is for the identifier, or for a code of it, is among the overrides for the rule. -/
  candidates (name : String) (addressed : name = label ++ "." ++ identifier ∨
      ∃ code, name = label ++ "." ++ identifier ++ "." ++ code) :
    (Messages.candidates resolver.overrides label (.name identifier)).get? name =
      resolver.overrides.get? name
  /-- With codes, the overrides of the identifier and of each code are the messages. -/
  coded {codes : List String} (some : (s.rules.item id).violations ≠ [])
      (read : (s.rules.item id).violations.mapM Value.plain = .ok codes) :
    (resolveMessages resolver label id recorded s).1 =
      Messages.orOwn (s.rules.item id) label
        (Messages.exactly resolver.overrides (label ++ "." ++ identifier) codes)
  /-- Without codes, the first of the overrides for the rule is the message. -/
  plain (none : (s.rules.item id).violations = []) :
    (resolveMessages resolver label id recorded s).1 =
      Messages.orOwn (s.rules.item id) label
        (((Messages.candidates resolver.overrides label (.name identifier)).take 1).map (·.2))

theorem looksUp (addressed : (ruleKey resolver id recorded s).1 = .ok (.name identifier))
    (label : String) : resolver.LooksUp s label identifier id recorded := by
  have key : RuleKey.ofRule (resolver.registry.map s.registries.item) s.rules id recorded =
      .name identifier := Except.ok.inj addressed
  have resolved : (resolveMessages resolver label id recorded s).1 =
      Messages.resolve resolver.overrides label (.name identifier) (s.rules.item id) := by
    rw [← key]
    rfl
  constructor
  · intro name addressed
    exact Messages.candidates_get? resolver.overrides label (.name identifier) (.inr addressed)
  · intro codes some read
    rw [resolved, Messages.resolve_codes _ _ _ some, read]
    rfl
  · intro none
    rw [resolved, Messages.resolve_plain _ _ _ none]

/-- An override for the identifier, or for a code that the rule has reported, is one of the
    messages. -/
theorem LooksUp.chosen (looks : resolver.LooksUp s label identifier id recorded)
    {codes : List String} (read : (s.rules.item id).violations.mapM Value.plain = .ok codes)
    {code : String} (reported : code ∈ codes) {name : String} {message : Value}
    (addressed : name = label ++ "." ++ identifier ∨
      name = label ++ "." ++ identifier ++ "." ++ code)
    (given : resolver.overrides.get? name = some message) :
    ∃ messages, (resolveMessages resolver label id recorded s).1 = .ok messages ∧
      message ∈ messages := by
  have some : (s.rules.item id).violations ≠ [] := by
    intro none
    rw [none] at read
    obtain rfl : [] = codes := Except.ok.inj read
    cases reported
  have member : message ∈
      Messages.exactly resolver.overrides (label ++ "." ++ identifier) codes := by
    refine List.mem_flatMap.mpr ⟨code, reported, ?_⟩
    rcases addressed with rfl | rfl <;> simp [given]
  refine ⟨_, ?_, member⟩
  rw [looks.coded some read]
  cases found : Messages.exactly resolver.overrides (label ++ "." ++ identifier) codes with
  | nil =>
      rw [found] at member
      cases member
  | cons first rest => rfl

/-- A rule that nothing registers as it is stays unknown. -/
theorem unknown_after (formed : s.WellFormed) (isNew : s.rules.next ≤ id)
    {history : List RuleUse} (proper : RuleUse.AllProper s history)
    (unregistered : ∀ use ∈ history, ¬use.Registers id)
    (existing : ∀ r, resolver.registry = some r → r < (RuleUse.after s history).registries.next) :
    ¬resolver.Knows (RuleUse.after s history) id := by
  rintro ⟨r, given, ⟨name, _⟩, member, rfl⟩
  have shares : (RuleUse.after s history).Shares id := ⟨r, existing r given, .entry member⟩
  cases RuleUse.after_shares proper shares with
  | inl before => exact absurd (before.existing formed) (Nat.not_lt.mpr isNew)
  | inr registers =>
      obtain ⟨use, inside, registers⟩ := registers
      exact unregistered use inside registers

end Resolver

namespace Session

open RuleUse

/-- The identifier that an entry gets when it is registered without one addresses what is built
    from it. The entry is a class, or a function that gives no rule that exists already. In every
    session where a registry has this entry under the identifier, however it has come there,
    building it succeeds and gives a new rule whose name is the identifier. Whatever is done then,
    unless the rule is renamed, the rule keeps the name; and where it is not registered itself, the
    identifier is its key. So for each attribute, and for each value that it has checked, the
    overrides that are written with the identifier are looked up for the rule. -/
theorem derived_addresses {written : Written} (anew : ∀ other, ¬written.Gives other)
    (registered : (Registry.register written none w).1 = .ok identifier) :
    ∃ factory, Factory.ofWritten w.rules written = .ok factory ∧
      (Registry.register written none w).2.registry.entries.get? identifier = some factory ∧
      ∀ (s : Session) (r : Nat), (s.registries.item r).entries.get? identifier = some factory →
        let new := s.rules.next
        let built := (RuleUse.build r identifier []).perform s
        (inRegistry r (Registry.build identifier []) s).1 = .ok new ∧
        ∀ more, AllProper built more → (∀ use ∈ more, ¬use.Renames new) →
          let now := after built more
          (now.rules.item new).name = identifier ∧
          ∀ resolver : Resolver, ¬resolver.Knows now new → ∀ recorded,
            (ruleKey resolver new recorded now).1 = .ok (.name identifier) ∧
            ∀ label value, resolver.LooksUp ((check new value).perform now) label identifier
              new recorded := by
  obtain ⟨factory, checked, derived, found⟩ := Registry.register_derived registered
  have anewToo (other : RuleId) (gives : factory.Gives other) : False :=
    anew other (Factory.ofWritten_gives checked gives)
  obtain ⟨named, made, makes, madeName⟩ := Factory.identifier_fresh derived anewToo
  refine ⟨factory, checked, found, ?_⟩
  intro s r entry new built
  obtain ⟨seen, ran⟩ := @Registry.build_fresh (s.workspace r) identifier factory [] made entry makes
  refine ⟨congrArg (·.1) ran, ?_⟩
  have rules : built.rules = (s.rules.add made).2 := congrArg (·.2.rules) ran
  have existing : new < built.rules.next := by
    rw [rules]
    exact Nat.lt_succ_self _
  have name : (built.rules.item new).name = identifier := by
    rw [rules, Shelf.item_add, if_pos rfl]
    exact madeName
  intro more proper kept now
  have nameNow : (now.rules.item new).name = identifier :=
    (after_name proper kept existing).trans name
  have existingNow : new < now.rules.next := Nat.lt_of_lt_of_le existing (after_next proper)
  -- A check changes no registry and no name, so that the key is the same behind it.
  have keyed {s' : Session} (sameName : (s'.rules.item new).name = identifier)
      {resolver : Resolver} (unknown : ¬resolver.Knows s' new) (recorded : Int) :
      (ruleKey resolver new recorded s').1 = .ok (.name identifier) := by
    have key := Resolver.ruleKey_name unknown (by rwa [sameName]) recorded
    rwa [sameName] at key
  refine ⟨nameNow, ?_⟩
  intro resolver unknown recorded
  refine ⟨keyed nameNow unknown recorded, ?_⟩
  intro label value
  have properCheck : (check new value).Proper now := existingNow
  have checkedName : (((check new value).perform now).rules.item new).name = identifier :=
    (perform_name properCheck (fun renames => renames) existingNow).trans nameNow
  exact Resolver.looksUp (keyed checkedName unknown recorded) label

end Session

namespace Sample

open RegistryUse

/-- A rule for email addresses under a name of its own. -/
def mail : Rule := { Rule.ofKind .email with givenName := some "mail" }

/-- A function that makes such rules. -/
def mailer : Callable where
  id := 0
  name := "mailer"
  run _ := .ok (.fresh mail)

/-- The function is registered without an identifier, and its registry is copied. -/
def mailing : List RuleUse :=
  [.ofRegistry (operate 0 (.register (.callable mailer) none)), .ofRegistry (copy 0)]

def mailResolver : Resolver where
  overrides := [("contact.mail.type", .str "No text")]
  registry := some 1

theorem mailer_gives (id : RuleId) : ¬Written.Gives id (.callable mailer) := by
  rintro ⟨arguments, given⟩
  cases given

theorem mailing_proper : RuleUse.AllProper {} mailing := by
  refine ⟨⟨by decide +kernel, ?_⟩, (by decide +kernel : 0 < 1), trivial⟩
  simp [Registry.Operation.InUse, Registry.Operation.entries, mailer_gives]

end Sample

open RuleUse Session in
theorem Session.derived_addresses_sample :
    let s := after {} Sample.mailing
    let built := (RuleUse.build 1 "mail" []).perform s
    (inRegistry 1 (Registry.build "mail" []) s).1 = .ok 1 ∧
      (ruleKey Sample.mailResolver 1 0 built).1 = .ok (.name "mail") ∧
      ∃ messages, (resolveMessages Sample.mailResolver "contact" 1 0
        ((check 1 (.int 5)).perform built)).1 = .ok messages ∧ .str "No text" ∈ messages := by
  intro s built
  have registered : (Registry.register (.callable Sample.mailer) none (workspace {} 0)).1 =
      .ok "mail" := rfl
  obtain ⟨factory, checked, _, later⟩ := derived_addresses Sample.mailer_gives registered
  obtain rfl := Except.ok.inj checked
  obtain ⟨given, all⟩ := later s 1 rfl
  obtain ⟨_, addressed⟩ := all [] trivial (by simp)
  have formed : s.WellFormed := after_wellFormed (start_wellFormed rfl) Sample.mailing_proper
  have proper : AllProper s [.build 1 "mail" []] := ⟨(by decide +kernel : 1 < 2), trivial⟩
  have unknown : ¬Sample.mailResolver.Knows built 1 := by
    apply Resolver.unknown_after formed (by decide +kernel : 1 ≤ 1) proper
    · simp [Registers]
    · intro r given
      obtain rfl : 1 = r := Option.some.inj given
      exact (by decide +kernel : 1 < 2)
  obtain ⟨key, looks⟩ := addressed Sample.mailResolver unknown 0
  refine ⟨given, key, ?_⟩
  have read : [Value.str "type"].mapM Value.plain = .ok ["type"] := rfl
  exact (looks "contact" (.int 5)).chosen read List.mem_cons_self (.inr rfl) rfl

end FieldRules
