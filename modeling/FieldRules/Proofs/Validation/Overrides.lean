import FieldRules.Proofs.Keyed
import FieldRules.Validation.Messages

/-! # Choosing overrides

What addresses a rule is the identifier that the very rule is registered under, else its name, else
the number of messages before it. Codes of a violation select overrides by their exact names, so
the order of overrides does not matter, and neither does an override of the attribute as a whole.
Without codes it is the order that decides: the first override counts that is for the attribute, for
the rule or for any code of it. In both cases the rule's own message stands in when there is no
override.
-/

namespace FieldRules

/-! ## Addresses -/

/-- What addresses a rule, `recorded` messages being recorded before. -/
inductive RuleKey.Addresses (registry : Option Registry) (rules : RuleStore) (id : RuleId)
    (recorded : Int) : String → Prop where
  /-- The rule is registered; the first of its identifiers counts. -/
  | registered {r : Registry} (given : registry = some r) {before after : Keyed Factory}
      {identifier : String} (split : r.entries = before ++ (identifier, .shared id) :: after)
      (first : ∀ entry ∈ before, entry.2 ≠ .shared id) :
      Addresses registry rules id recorded identifier
  | named (unregistered : ∀ r ∈ registry, ∀ entry ∈ r.entries, entry.2 ≠ .shared id)
      (named : (rules.item id).name ≠ "") :
      Addresses registry rules id recorded (rules.item id).name
  | counted (unregistered : ∀ r ∈ registry, ∀ entry ∈ r.entries, entry.2 ≠ .shared id)
      (unnamed : (rules.item id).name = "") :
      Addresses registry rules id recorded (toString recorded)

theorem Factory.isThe_rule {factory : Factory} {id : RuleId} :
    factory.isThe (.rule id) = true ↔ factory = .shared id := by
  cases factory <;> simp [isThe]

theorem Registry.identifierOf_none {registry : Registry} {id : RuleId} :
    registry.identifierOf (.rule id) = none ↔ ∀ entry ∈ registry.entries, entry.2 ≠ .shared id := by
  simp only [identifierOf, Option.map_eq_none_iff, List.find?_eq_none, Factory.isThe_rule]

theorem Registry.identifierOf_some {registry : Registry} {id : RuleId} {identifier : String} :
    registry.identifierOf (.rule id) = some identifier ↔
      ∃ before after, registry.entries = before ++ (identifier, .shared id) :: after ∧
        ∀ entry ∈ before, entry.2 ≠ .shared id := by
  simp only [identifierOf, Option.map_eq_some_iff, List.find?_eq_some_iff_append]
  constructor
  · rintro ⟨⟨_, factory⟩, ⟨isThe, before, after, split, first⟩, rfl⟩
    obtain rfl := Factory.isThe_rule.mp isThe
    refine ⟨before, after, split, fun entry member shared => ?_⟩
    simpa [Factory.isThe_rule.mpr shared] using first entry member
  · rintro ⟨before, after, split, first⟩
    refine ⟨(identifier, .shared id), ⟨Factory.isThe_rule.mpr rfl, before, after, split, ?_⟩, rfl⟩
    intro entry member
    simpa using mt Factory.isThe_rule.mp (first entry member)

/-- Without an identifier of its own a rule has its name as its key, or the number of messages. -/
theorem RuleKey.ofRule_unregistered {registry : Option Registry} {rules : RuleStore} {id : RuleId}
    (unregistered : ∀ r ∈ registry, ∀ entry ∈ r.entries, entry.2 ≠ .shared id) (recorded : Int) :
    ofRule registry rules id recorded =
      if (rules.item id).name = "" then .position recorded else .name (rules.item id).name := by
  have absent : (registry.bind fun r => r.identifierOf (.rule id)) = none := by
    simpa [Option.bind_eq_none_iff, Registry.identifierOf_none] using unregistered
  rw [ofRule, absent]

/-- The key of a rule is what addresses it. -/
theorem RuleKey.addresses_iff {registry : Option Registry} {rules : RuleStore} {id : RuleId}
    {recorded : Int} {text : String} :
    Addresses registry rules id recorded text ↔
      text = (ofRule registry rules id recorded).text := by
  constructor
  · intro addresses
    cases addresses with
    | registered given split first =>
        have found := Registry.identifierOf_some.mpr ⟨_, _, split, first⟩
        simp [ofRule, given, found, RuleKey.text]
    | named unregistered named =>
        rw [ofRule_unregistered unregistered, if_neg named, RuleKey.text]
    | counted unregistered unnamed =>
        rw [ofRule_unregistered unregistered, if_pos unnamed, RuleKey.text]
  · rintro rfl
    cases found : registry.bind fun r => r.identifierOf (.rule id) with
    | some identifier =>
        obtain ⟨r, given, identified⟩ := Option.bind_eq_some_iff.mp found
        obtain ⟨before, after, split, first⟩ := Registry.identifierOf_some.mp identified
        simpa [ofRule, found, RuleKey.text] using .registered given split first
    | none =>
        have unregistered : ∀ r ∈ registry, ∀ entry ∈ r.entries, entry.2 ≠ .shared id := by
          simpa [Option.bind_eq_none_iff, Registry.identifierOf_none] using found
        by_cases unnamed : (rules.item id).name = ""
        · simpa [ofRule, found, unnamed, RuleKey.text] using .counted unregistered unnamed
        · simpa [ofRule, found, unnamed, RuleKey.text] using .named unregistered unnamed

namespace Messages

/-! ## Overrides by name -/

/-- An override is for an attribute, for a rule of it or for a code of that rule. -/
def Concerns (label address name : String) : Prop :=
  name = label ∨ name = address ∨ ∃ code, name = address ++ "." ++ code

/-- The overrides of exactly the rule and the code, for each code in order. -/
def exactly (overrides : Keyed Value) (address : String) (codes : List String) : List Value :=
  codes.flatMap fun code =>
    (overrides.get? address).toList ++ (overrides.get? (address ++ "." ++ code)).toList

/-- Messages, or the rule's own if there are none. -/
def orOwn (rule : Rule) (label : String) : List Value → Outcome (List Value)
  | [] => (rule.message (Text.spaced label)).map fun text => [.str text]
  | found => .ok found

theorem beginsWith_iff {s start : String} :
    Text.beginsWith s start = true ↔ ∃ rest, s = start ++ rest := by
  rw [Text.beginsWith, List.isPrefixOf_iff_prefix]
  constructor
  · rintro ⟨rest, joined⟩
    refine ⟨String.ofList rest, String.toList_inj.mp ?_⟩
    rw [String.toList_append, String.toList_ofList, joined]
  · rintro ⟨rest, rfl⟩
    exact ⟨rest.toList, by rw [String.toList_append]⟩

theorem concerns_iff {label address name : String} :
    concerns label address name = true ↔ Concerns label address name := by
  simp only [concerns, Concerns, Bool.or_eq_true, beq_iff_eq, beginsWith_iff, or_assoc]

/-- The address of a rule, and of a code of it, goes on behind the name of the attribute. -/
theorem ruleAddress_ne (label : String) (key : RuleKey) (more : String) :
    ruleAddress label key ++ more ≠ label := by
  intro same
  have lengths := congrArg String.length same
  simp only [ruleAddress, String.length_append] at lengths
  have dot : ".".length = 1 := rfl
  omega

/-- Filtering loses none of the overrides that are looked up. -/
theorem candidates_get? (overrides : Keyed Value) (label : String) (key : RuleKey) {name : String}
    (concerned : Concerns label (ruleAddress label key) name) :
    (candidates overrides label key).get? name = overrides.get? name := by
  rw [candidates, Keyed.get?_filter, concerns_iff.mpr concerned, if_pos rfl]

theorem exactly_candidates (overrides : Keyed Value) (label : String) (key : RuleKey)
    (codes : List String) :
    exactly (candidates overrides label key) (ruleAddress label key) codes =
      exactly overrides (ruleAddress label key) codes := by
  have ofRule := candidates_get? overrides label key (.inr (.inl rfl))
  have ofCode code := candidates_get? overrides label key (.inr (.inr ⟨code, rfl⟩))
  simp only [exactly, ofRule, ofCode]

/-- Neither the order of overrides matters to codes nor the override of the attribute. -/
theorem exactly_reordered {overrides others : Keyed Value} {label : String}
    (same : (overrides.drop label).Perm (others.drop label)) (distinct : overrides.names.Nodup)
    (key : RuleKey) (codes : List String) :
    exactly others (ruleAddress label key) codes =
      exactly overrides (ruleAddress label key) codes := by
  have restDistinct : (overrides.drop label).names.Nodup := by
    rw [Keyed.drop, Keyed.names_filter fun name => decide (name ≠ label)]
    exact distinct.filter _
  have found {name : String} (other : name ≠ label) : others.get? name = overrides.get? name := by
    have looked := Keyed.get?_perm same restDistinct name
    simp only [Keyed.drop, Keyed.get?_filter fun name => decide (name ≠ label), other, ne_eq,
      not_false_eq_true, decide_true, if_true] at looked
    exact looked.symm
  have ofRule := found (by simpa using ruleAddress_ne label key "")
  have ofCode (code : String) : others.get? (ruleAddress label key ++ "." ++ code) =
      overrides.get? (ruleAddress label key ++ "." ++ code) := by
    rw [String.append_assoc]
    exact found (ruleAddress_ne label key _)
  simp only [exactly, ofRule, ofCode]

/-! ## The messages that are chosen -/

theorem selected_eq (found : Keyed Value) (address : String) (codes : List Value) :
    selected found address codes = (codes.mapM Value.plain).map (exactly found address) := by
  induction codes with
  | nil => rfl
  | cons code rest ih =>
      simp only [selected, ih, List.mapM_cons, bind, Except.bind, pure, Except.pure]
      cases code.plain with
      | error fault => rfl
      | ok text =>
          cases rest.mapM Value.plain with
          | error fault => rfl
          | ok texts =>
              have chosen : [address, address ++ "." ++ text].filterMap found.get? =
                  (found.get? address).toList ++ (found.get? (address ++ "." ++ text)).toList := by
                simp only [List.filterMap_cons, List.filterMap_nil]
                cases found.get? address <;> cases found.get? (address ++ "." ++ text) <;> rfl
              simp only [Except.map, exactly, List.flatMap_cons, chosen]

theorem resolve_eq (overrides : Keyed Value) (label : String) (key : RuleKey) (rule : Rule) :
    resolve overrides label key rule =
      (overriding overrides label key rule.violations).bind (orOwn rule label) := by
  simp only [resolve, bind]
  rcases overriding overrides label key rule.violations with fault | found
  · rfl
  · rcases found with _ | ⟨message, rest⟩
    · simp only [Except.bind, orOwn]
      cases rule.message (Text.spaced label) <;> rfl
    · rfl

theorem orOwn_ne_nil {rule : Rule} {label : String} {found messages : List Value}
    (given : orOwn rule label found = .ok messages) : messages ≠ [] := by
  cases found with
  | nil =>
      simp only [orOwn] at given
      cases own : rule.message (Text.spaced label) with
      | error fault => simp [own, Except.map] at given
      | ok text =>
          rw [own] at given
          cases given
          exact List.cons_ne_nil _ _
  | cons message rest =>
      cases given
      exact List.cons_ne_nil _ _

theorem resolve_ne_nil {overrides : Keyed Value} {label : String} {key : RuleKey} {rule : Rule}
    {messages : List Value} (given : resolve overrides label key rule = .ok messages) :
    messages ≠ [] := by
  rw [resolve_eq] at given
  rcases found : overriding overrides label key rule.violations with fault | found
  · simp [found, Except.bind] at given
  · rw [found] at given
    exact orOwn_ne_nil given

/-- With codes, the overrides of exactly the rule and of exactly the codes are chosen. -/
theorem resolve_codes (overrides : Keyed Value) (label : String) (key : RuleKey) {rule : Rule}
    (codes : rule.violations ≠ []) :
    resolve overrides label key rule = (rule.violations.mapM Value.plain).bind fun texts =>
      orOwn rule label (exactly overrides (ruleAddress label key) texts) := by
  have some : rule.violations.isEmpty = false := List.isEmpty_eq_false_iff.mpr codes
  rw [resolve_eq, overriding]
  simp only [some, Bool.false_eq_true, if_false, selected_eq]
  cases rule.violations.mapM Value.plain with
  | error fault => rfl
  | ok texts => simp only [Except.map, Except.bind, exactly_candidates]

theorem resolve_plain (overrides : Keyed Value) (label : String) (key : RuleKey) {rule : Rule}
    (none : rule.violations = []) :
    resolve overrides label key rule =
      orOwn rule label (((candidates overrides label key).take 1).map (·.2)) := by
  rw [resolve_eq, overriding]
  simp only [none, List.isEmpty_nil, if_true, Except.bind]

/-- Codes that are texts read as themselves. -/
theorem mapM_plain (texts : List String) : (texts.map Value.str).mapM Value.plain = .ok texts := by
  induction texts with
  | nil => rfl
  | cons text rest ih =>
      rw [List.map_cons, List.mapM_cons, ih]
      rfl

/-- The first override that concerns a rule is the first candidate. -/
theorem candidates_first {before : Keyed Value} {label name : String} {key : RuleKey}
    (message : Value) (after : Keyed Value)
    (concerned : Concerns label (ruleAddress label key) name)
    (others : ∀ entry ∈ before, ¬Concerns label (ruleAddress label key) entry.1) :
    candidates (before ++ (name, message) :: after) label key =
      (name, message) :: candidates after label key := by
  have skipped : candidates before label key = [] :=
    List.filter_eq_nil_iff.mpr fun entry member => mt concerns_iff.mp (others entry member)
  simp only [candidates] at skipped ⊢
  rw [List.filter_append, skipped, List.nil_append, List.filter_cons, if_pos]
  exact concerns_iff.mpr concerned

/-- Which messages a failed rule gets. There is always one. Codes choose the overrides of exactly
    the rule and of exactly the code, one code after the other, whatever the order of overrides is
    and whether or not there is one for the attribute. Without codes the first override that is for
    the attribute, for the rule or for any code of it is chosen. If nothing is, the rule's own
    message for the attribute is. -/
theorem resolve_overrides (registry : Option Registry) (rules : RuleStore) (id : RuleId)
    (recorded : Int) (label : String) (overrides : Keyed Value) :
    ∃ key, (∀ text, RuleKey.Addresses registry rules id recorded text ↔ text = key) ∧
      let rule := rules.item id
      let address := label ++ "." ++ key
      let resolved overrides := resolve overrides label (.ofRule registry rules id recorded) rule
      (∀ messages, resolved overrides = .ok messages → messages ≠ []) ∧
      (∀ codes ≠ [], rule.violations = codes.map .str →
        resolved overrides = orOwn rule label (exactly overrides address codes)) ∧
      (rule.violations ≠ [] → resolved overrides = (rule.violations.mapM Value.plain).bind
        fun codes => orOwn rule label (exactly overrides address codes)) ∧
      (rule.violations ≠ [] → overrides.names.Nodup → ∀ others : Keyed Value,
        (overrides.drop label).Perm (others.drop label) →
          resolved others = resolved overrides) ∧
      (rule.violations = [] → ∀ before name message after,
        overrides = before ++ (name, message) :: after → Concerns label address name →
          (∀ entry ∈ before, ¬Concerns label address entry.1) →
            resolved overrides = .ok [message]) ∧
      (rule.violations = [] → (∀ entry ∈ overrides, ¬Concerns label address entry.1) →
        resolved overrides = (rule.message (Text.spaced label)).map fun text => [.str text]) := by
  refine ⟨_, fun text => RuleKey.addresses_iff, ?_⟩
  intro rule address resolved
  refine ⟨fun messages => resolve_ne_nil, ?texts, resolve_codes overrides label _, ?reordered,
    ?first, ?none⟩
  case texts =>
    intro codes some given
    have codesGiven : rule.violations ≠ [] := by simpa [given] using some
    have chosen := resolve_codes overrides label (.ofRule registry rules id recorded) codesGiven
    rw [given, mapM_plain] at chosen
    exact chosen
  case reordered =>
    intro codes distinct others same
    have reordered := exactly_reordered same distinct (.ofRule registry rules id recorded)
    simp only [resolved, resolve_codes _ label _ codes, reordered]
  case first =>
    rintro none before name message after rfl concerned skipped
    have found := candidates_first message after concerned skipped
    simp only [resolved, resolve_plain _ label _ none, found]
    rfl
  case none =>
    intro none unconcerned
    have found : candidates overrides label (.ofRule registry rules id recorded) = [] :=
      List.filter_eq_nil_iff.mpr fun entry member =>
        mt concerns_iff.mp (unconcerned entry member)
    simp only [resolved, resolve_plain _ label _ none, found]
    rfl

/-! ## A sample

A registered rule that has codes, and a rule of the same name that has none.
-/

namespace Sample

def rules : RuleStore :=
  ((Shelf.empty.add
    { Rule.ofKind (.length 3 5) with violations := [.str "short", .str "form"] }).2.add
    { Rule.ofKind .array with givenName := some "size" }).2

def registry : Registry := { entries := [("size", .shared 0)] }

def overrides : Keyed Value :=
  [("code.size.form", .str "Odd"), ("code", .str "Wrong"), ("code.size", .str "Bad")]

end Sample

theorem resolve_overrides_sample :
    resolve Sample.overrides "code" (.ofRule (some Sample.registry) Sample.rules 0 0)
        (Sample.rules.item 0) = .ok [.str "Bad", .str "Bad", .str "Odd"] ∧
      resolve Sample.overrides "code" (.ofRule (some Sample.registry) Sample.rules 1 0)
        (Sample.rules.item 1) = .ok [.str "Odd"] := by
  constructor
  · obtain ⟨key, addresses, _, codes, _⟩ :=
      resolve_overrides (some Sample.registry) Sample.rules 0 0 "code" Sample.overrides
    have split : Sample.registry.entries = [] ++ ("size", .shared 0) :: [] := rfl
    obtain rfl := (addresses "size").mp (.registered rfl split (by simp))
    have chosen := codes ["short", "form"] (by simp) rfl
    exact chosen
  · obtain ⟨key, addresses, _, _, _, _, first, _⟩ :=
      resolve_overrides (some Sample.registry) Sample.rules 1 0 "code" Sample.overrides
    have unregistered : ∀ r ∈ some Sample.registry, ∀ entry ∈ r.entries, entry.2 ≠ .shared 1 := by
      simp [Sample.registry]
    obtain rfl := (addresses "size").mp (.named unregistered (show "size" ≠ "" by decide))
    exact first rfl [] _ _ _ rfl (.inr (.inr ⟨"form", rfl⟩)) (by simp)

end Messages

end FieldRules
