import FieldRules.Proofs.Session.Validators

/-! # Rule strings spelled out

A registry makes the rules of a rule string by the makers that it has read for it, and a single rule
by the maker that an identifier has now. Where the string was read by the present entries these are
the same, so that the string may be replaced by the rules that the registry makes for its tokens one
by one: as rules of an attribute both stand for the same.
-/

namespace FieldRules

variable {w w' : Workspace}

namespace Registry

/-- Asks a registry for the rule of each token. -/
def buildEach : List Token → Task (List RuleId)
  | [] => return []
  | token :: rest => do
    let id ← build token.identifier (token.arguments.map .str)
    return id :: (← buildEach rest)

/-- With the makers that are registered, the rules of tokens can as well be asked for. -/
theorem buildEach_eq {tokens : List Token}
    (registered : ∀ token ∈ tokens, w.registry.entries.get? token.identifier = some token.factory) :
    buildEach tokens w = buildTokens tokens w := by
  induction tokens generalizing w with
  | nil => rfl
  | cons token rest ih =>
      obtain ⟨here, others⟩ := List.forall_mem_cons.mp registered
      have made : build token.identifier (token.arguments.map .str) w = token.build w := by
        simp only [build, resolve, here, Task.bind_eq, Task.get_eq, Task.ofOutcome_eq]
        rfl
      have kept := (token.factory.construct_detached token.identifier
        (token.arguments.map .str)).registry w
      simp only [buildEach, buildTokens, Task.bind_eq, made]
      rcases built : token.build w with ⟨fault | id, w'⟩
      · rfl
      · rw [Token.build] at built
        rw [built] at kept
        simp only
        rw [ih (by rwa [kept])]

/-- A rule that is shared is what its token is made into. -/
theorem buildTokens_shared {tokens : List Token} {ids : List RuleId}
    (made : buildTokens tokens w = (.ok ids, w')) {position : Nat} {token : Token} {shared : RuleId}
    (there : tokens[position]? = some token) (shares : token.factory = .shared shared) :
    ids[position]? = some shared := by
  induction tokens generalizing w ids position with
  | nil => simp at there
  | cons first rest ih =>
      rw [buildTokens] at made
      obtain ⟨id, w₁, firstMade, made⟩ := Task.bind_ran made
      obtain ⟨others, w₂, restMade, made⟩ := Task.bind_ran made
      cases made
      cases position with
      | succ position => exact ih restMade there
      | zero =>
          obtain rfl := Option.some.inj there
          rw [Token.build, shares, Factory.construct] at firstMade
          split at firstMade
          · obtain ⟨same, _⟩ := Prod.mk.inj firstMade
            exact congrArg some (Except.ok.inj same).symm
          · cases firstMade

theorem parse_shared {spec : String} {tokens : List Token}
    (reading : w.registry.reading spec = .ok tokens) {ids : List RuleId}
    (parses : (parse spec w).1 = .ok ids) {position : Nat} {token : Token} {shared : RuleId}
    (there : tokens[position]? = some token) (shares : token.factory = .shared shared) :
    ids[position]? = some shared := by
  have outcome : (Registry.tokens spec w).1 = .ok tokens := (tokens_outcome spec w).trans reading
  rw [parse, Task.bind_eq] at parses
  rcases read : Registry.tokens spec w with ⟨fault | found, w'⟩ <;> rw [read] at outcome parses
  · cases outcome
  · obtain rfl : found = tokens := Except.ok.inj outcome
    exact buildTokens_shared (Prod.ext parses rfl) there shares

/-- Rules can be made of the tokens of a rule string before it is read as well. -/
theorem buildTokens_parsed (closed : w.Closed) {spec : String} {parsed : List RuleId}
    (parses : (parse spec w).1 = .ok parsed) :
    ∃ tokens ids built, w.registry.reading spec = .ok tokens ∧
      buildTokens tokens w = (.ok ids, built) := by
  -- What the tokens stand for is the same before they are read and behind that.
  have rules : w.parsed spec = .ok _ := congrArg (Except.map _) parses
  rw [Workspace.parsed_eq closed] at rules
  obtain ⟨tokens, reading, made⟩ := Outcome.bind_ok rules
  have described := buildTokens_described (reading_inUse closed reading) (Nat.le_refl _)
  rw [made] at described
  rcases run : buildTokens tokens w with ⟨fault | ids, built⟩
  · rw [run] at described
    cases described
  · exact ⟨tokens, ids, built, reading, run⟩

/-- A shared rule is registered under some identifier. -/
theorem identifierOf_shared {registry : Registry} {identifier : String} {shared : RuleId}
    (registered : (identifier, Factory.shared shared) ∈ registry.entries) :
    ∃ first, registry.identifierOf (.rule shared) = some first ∧
      (first, Factory.shared shared) ∈ registry.entries := by
  have isThe : (Factory.shared shared).isThe (.rule shared) = true := by simp [Factory.isThe]
  cases found : registry.entries.find? fun entry => entry.2.isThe (.rule shared) with
  | none =>
      have without := List.find?_eq_none.mp found _ registered
      exact absurd isThe without
  | some entry =>
      obtain ⟨first, factory⟩ := entry
      have same := List.find?_some found
      refine ⟨first, by simp [identifierOf, found], ?_⟩
      cases factory with
      | shared other =>
          obtain rfl : other = shared := by simpa [Factory.isThe] using same
          exact List.mem_of_find?_eq_some found
      | ofClass | callable => simp [Factory.isThe] at same

end Registry

namespace Written

theorem listed_rules_bound (rules : RuleStore) (ids : List RuleId) :
    (list (ids.map rule)).listed rules = .ok (ids.map .bound) := by
  rw [listed]
  induction ids with
  | nil => rfl
  | cons id rest ih =>
      rw [List.map_cons, TableEntry.ofSequence, ih]
      rfl

theorem allInUse_rules {rules : RuleStore} {ids : List RuleId}
    (below : ∀ id ∈ ids, id < rules.next) : AllInUse rules (ids.map rule) := by
  induction ids with
  | nil => trivial
  | cons id rest ih =>
      obtain ⟨first, others⟩ := List.forall_mem_cons.mp below
      exact ⟨first, ih others⟩

/-- Rules in a list stand for themselves. -/
theorem encounters_list (w : Workspace) (ids : List RuleId) :
    encounters w (list (ids.map rule)) = .ok (ids.map fun id => (MetRule.ofShared w id).always) := by
  have listed : RuleTable.attributeEntries (list (ids.map rule)) w = (.ok (ids.map .bound), w) := by
    rw [attributeEntries_listed (fun _ same => by cases same), listed_rules_bound]
  rw [encounters, listed]
  simp only [Except.map, List.map_map]
  rfl

/-- A rule string stands for the rules that are made of its tokens. -/
theorem encounters_spelledOut (closed : w.Closed) {spec : String} {tokens : List Token}
    (reading : w.registry.reading spec = .ok tokens) {ids : List RuleId} {built : Workspace}
    (made : Registry.buildTokens tokens w = (.ok ids, built)) (closed' : w'.Closed)
    (before : w.ContinuedIn w') (after : built.KeptIn w') :
    encounters w' (list (ids.map rule)) = encounters w' (value (.str spec)) := by
  have used := Registry.reading_inUse closed reading
  have met := Registry.buildTokens_met closed (.refl w) closed used
  have below := (Registry.buildTokens_keeps closed used).given
  rw [made] at met below
  have string : encounters w' (value (.str spec)) = encounters w (value (.str spec)) :=
    encounters_continued closed before closed' (by trivial)
  rw [string, encounters_str closed, reading, encounters_list]
  rcases given : tokens.mapM Token.made with fault | toMeet
  · rw [given] at met
    cases met
  · rw [given] at met
    have same : ids.map (MetRule.ofShared built) = toMeet.map (MadeRule.met w) :=
      Except.ok.inj met
    have later : ids.map (MetRule.ofShared w') = ids.map (MetRule.ofShared built) :=
      List.map_congr_left fun id member => MetRule.ofShared_kept after (below ids rfl id member)
    have always := congrArg (List.map MetRule.always) (later.trans same)
    rw [List.map_map, List.map_map] at always
    simp only [Except.bind, given]
    exact congrArg Except.ok always

end Written

namespace Session

variable {s t t' base built : Session} {registry : Nat}

theorem inUse_inserted {rules : RuleStore} {before after : Keyed Written}
    (used : ∀ row ∈ before ++ after, row.2.InUse rules) (name : String) {written : Written}
    (ownUsed : written.InUse rules) :
    ∀ row ∈ before ++ (name, written) :: after, row.2.InUse rules := by
  intro row member
  rcases List.mem_append.mp member with inside | inside
  · exact used row (List.mem_append_left _ inside)
  · rcases List.mem_cons.mp inside with rfl | later
    · exact ownUsed
    · exact used row (List.mem_append_right _ later)

/-- A plan is the same with a rule string as with what stands for the same. -/
theorem planFor_spelledOut (closed : (base.workspace registry).Closed)
    (goes : GoesOn registry base t) (goes' : GoesOn registry base t')
    (settings : t'.settings.item mainId = t.settings.item mainId) {spec : String}
    {rules : Written}
    (same : rules.encounters (t'.workspace registry) =
      (Written.value (.str spec)).encounters (t'.workspace registry))
    {before after : Keyed Written} (name : String)
    (used : ∀ row ∈ before ++ after, row.2.InUse base.rules) (stops : Option Bool) :
    t'.planFor registry (before ++ (name, rules) :: after) stops =
      t.planFor registry (before ++ (name, .value (.str spec)) :: after) stops := by
  have allUsed : ∀ row ∈ before ++ (name, Written.value (.str spec)) :: after,
      row.2.InUse base.rules := inUse_inserted used name trivial
  have encounters : RuleTable.rowEncounters (t'.workspace registry)
      (before ++ (name, rules) :: after) = RuleTable.rowEncounters (t.workspace registry)
        (before ++ (name, .value (.str spec)) :: after) := by
    rw [RuleTable.rowEncounters_replaced same,
      RuleTable.rowEncounters_continued closed goes'.continued goes'.closed allUsed,
      RuleTable.rowEncounters_continued closed goes.continued goes.closed allUsed]
  simp only [planFor, settings, encounters]

/-- Validators come to the same with a rule string as with what stands for the same. -/
theorem makeValidator_spelledOut (closed : (base.workspace registry).Closed)
    (goes : GoesOn registry base t) (goes' : GoesOn registry base t')
    (next : t'.validators.next = t.validators.next)
    (settings : t'.settings.item mainId = t.settings.item mainId) {spec : String}
    {rules : Written} (rulesUsed : rules.InUse t'.rules)
    (same : rules.encounters (t'.workspace registry) =
      (Written.value (.str spec)).encounters (t'.workspace registry))
    {before after : Keyed Written} {name : String}
    (distinct : (before.names ++ name :: after.names).Nodup)
    (used : ∀ row ∈ before ++ after, row.2.InUse base.rules) (data overrides : Keyed Value)
    (stops : Option Bool) :
    let ofString := makeValidator registry data
      (.rules (before ++ (name, .value (.str spec)) :: after)) overrides stops t
    let ofRules := makeValidator registry data
      (.rules (before ++ (name, rules) :: after)) overrides stops t'
    ofRules.1 = ofString.1 ∧ ∀ id, ofString.1 = .ok id → ∀ uses uses',
      dataAfter id uses' data = dataAfter id uses data →
        SameOutcome id (Session.after uses ofString.2) (Session.after uses' ofRules.2) := by
  intro ofString ofRules
  have nodup (own : Written) : (Keyed.names (before ++ (name, own) :: after)).Nodup := by
    simpa [Keyed.names] using distinct
  have listed (own : Written) : (RuleSheet.rules (before ++ (name, own) :: after)).entries =
      .ok (before ++ (name, own) :: after) := rfl
  have usedIn {session : Session} (goes : GoesOn registry base session) :
      ∀ row ∈ before ++ after, row.2.InUse session.rules := fun row member =>
    (used row member).mono goes.continued.kept.next
  have plan := planFor_spelledOut closed goes goes' settings same name used stops
  have planned := makeValidator_planned goes.sound goes.closed (listed (.value (.str spec)))
    (nodup _) (inUse_inserted (usedIn goes) name trivial) data overrides stops
  have planned' := makeValidator_planned goes'.sound goes'.closed (listed rules)
    (nodup _) (inUse_inserted (usedIn goes') name rulesUsed) data overrides stops
  rw [plan] at planned'
  cases given : t.planFor registry (before ++ (name, .value (.str spec)) :: after) stops with
  | error fault =>
      rw [given] at planned planned'
      refine ⟨planned'.trans planned.symm, fun id made => ?_⟩
      cases planned.symm.trans made
  | ok plan =>
      rw [given] at planned planned'
      refine ⟨by rw [planned'.outcome, planned.outcome, next], fun id made uses uses' same => ?_⟩
      obtain rfl := Except.ok.inj (planned.outcome.symm.trans made)
      exact planned.sameOutcome planned' next same

/-- The rules of tokens by the makers that are registered, in a session. -/
theorem inRegistry_buildEach (sound : s.Sound) (closed : (s.workspace registry).Closed)
    {spec : String} {tokens : List Token} {ids : List RuleId} {w : Workspace}
    (read : (s.registries.item registry).tokenize spec = .ok tokens)
    (made : Registry.buildTokens tokens (s.workspace registry) = (.ok ids, w)) :
    inRegistry registry (Registry.buildEach tokens) s = (.ok ids, s.absorb registry w) ∧
      GoesOn registry s (s.absorb registry w) := by
  have registered : ∀ token ∈ tokens,
      (s.workspace registry).registry.entries.get? token.identifier = some token.factory :=
    Token.readAll_factory read
  have used : ∀ token ∈ tokens, token.factory.InUse (s.workspace registry).rules :=
    fun token member => closed.entries _ (Keyed.mem_of_get? (registered token member))
  have same : Registry.buildEach tokens (s.workspace registry) = (.ok ids, w) :=
    (Registry.buildEach_eq registered).trans made
  obtain ⟨kept, closed', _⟩ := Registry.buildTokens_keeps closed used
  have registrySame := (Registry.buildTokens_detached tokens).registry (s.workspace registry)
  rw [made] at kept closed' registrySame
  refine ⟨?_, .absorbing sound (.ofRegistry kept registrySame) closed'⟩
  simp only [inRegistry, same]

/-- A rule string means the same as the rules that a registry makes of its tokens one by one, if it
    is read by the present entries and its rules can be made. In every session that goes on from
    having made them, a validator of the string and one of the list come to the same: both are made
    or are refused for the same fault, and then they agree in verdict, errors and result whenever
    they are used on the same data, in either mode and with any overrides. The rules of the other
    attributes are any that exist in a session that both go on from. A rule that the registry shares
    is the very same on both ways, and an identifier that it is registered under addresses it. -/
theorem ruleString_spelledOut (sound : s.Sound) (closed : (s.workspace registry).Closed)
    {spec : String} {parsed : List RuleId}
    (parses : (Registry.parse spec (s.workspace registry)).1 = .ok parsed)
    (present : (s.registries.item registry).reading spec =
      (s.registries.item registry).tokenize spec) :
    ∃ tokens ids built, (s.registries.item registry).tokenize spec = .ok tokens ∧
      inRegistry registry (Registry.buildEach tokens) s = (.ok ids, built) ∧
      GoesOn registry s built ∧
      (∀ base t t', (base.workspace registry).Closed → GoesOn registry base t →
        GoesOn registry base t' → GoesOn registry built t' →
        t'.validators.next = t.validators.next →
        t'.settings.item mainId = t.settings.item mainId →
        ∀ before name after, (Keyed.names before ++ name :: Keyed.names after).Nodup →
        (∀ row ∈ before ++ after, row.2.InUse base.rules) → ∀ data overrides stops,
          let ofString := makeValidator registry data
            (.rules (before ++ (name, .value (.str spec)) :: after)) overrides stops t
          let ofList := makeValidator registry data
            (.rules (before ++ (name, .list (ids.map .rule)) :: after)) overrides stops t'
          ofList.1 = ofString.1 ∧ ∀ id, ofString.1 = .ok id → ∀ uses uses',
            dataAfter id uses' data = dataAfter id uses data →
              SameOutcome id (Session.after uses ofString.2) (Session.after uses' ofList.2)) ∧
      ∀ (position : Nat) (token : Token) (shared : RuleId), tokens[position]? = some token →
        token.factory = .shared shared → parsed[position]? = some shared ∧ ids[position]? = some shared ∧
        ∃ identifier, (identifier, .shared shared) ∈ (s.registries.item registry).entries ∧
          ∀ t, GoesOn registry s t → ∀ recorded,
            RuleKey.ofRule (some (t.registries.item registry)) t.rules shared recorded =
              .name identifier := by
  obtain ⟨tokens, ids, built, reading, made⟩ := Registry.buildTokens_parsed closed parses
  have tokenized := present.symm.trans reading
  obtain ⟨asked, goes⟩ := inRegistry_buildEach sound closed tokenized made
  have below := (Registry.buildTokens_keeps closed (Registry.reading_inUse closed reading)).given
  have continued := goes.continued
  rw [made] at below
  refine ⟨tokens, ids, _, tokenized, asked, goes, ?same, ?shared⟩
  case same =>
    intro base t t' baseClosed goesBase goesBase' goesBuilt next settings first name later distinct
      rowsUsed data overrides stops
    have kept' := goesBuilt.continued.kept
    have listUsed : (Written.list (ids.map .rule)).InUse t'.rules :=
      Written.allInUse_rules fun id member =>
        Nat.lt_of_lt_of_le (below ids rfl id member) kept'.next
    have same : (Written.list (ids.map .rule)).encounters (t'.workspace registry) =
        (Written.value (.str spec)).encounters (t'.workspace registry) := by
      refine Written.encounters_spelledOut closed reading made goesBuilt.closed
        (continued.trans goesBuilt.continued) ?_
      rw [absorb_workspace] at kept'
      exact ⟨kept'.entries, kept'.next, kept'.cleared⟩
    exact makeValidator_spelledOut baseClosed goesBase goesBase' next settings listUsed same
      distinct rowsUsed data overrides stops
  case shared =>
    intro position token shared there shares
    have registered := Token.readAll_factory tokenized token (List.mem_of_getElem? there)
    rw [shares] at registered
    obtain ⟨identifier, first, inside⟩ :=
      Registry.identifierOf_shared (Keyed.mem_of_get? registered)
    refine ⟨Registry.parse_shared reading parses there shares,
      Registry.buildTokens_shared made there shares, identifier, inside, ?_⟩
    intro t goesOn recorded
    have addressed : (t.registries.item registry).identifierOf (.rule shared) = some identifier :=
      (goesOn.continued.kept.identifierOf (.rule shared)).trans first
    simp only [RuleKey.ofRule, Option.bind_some, addressed]

end Session

namespace Sample

/-- A session whose registry shares a rule for a length. -/
def sharing : Session :=
  { start with registries := (Shelf.empty.add
      { entries := [("strict", .shared 1), ("required", .ofClass (.builtIn .required))] }).2 }

def strictTokens : List Token :=
  [⟨"strict", [], .shared 1⟩, ⟨"required", [], .ofClass (.builtIn .required)⟩]

/-- The sample with the rules of the tokens. -/
def spelled : Session :=
  { sharing with
    registries := sharing.registries.set 0 (sharing.registries.item 0)
    rules := (sharing.rules.add (.ofKind .required)).2 }

theorem sharing_closed : (sharing.workspace 0).Closed where
  entries := List.forall_mem_cons.mpr
    ⟨(by decide : 1 < 3), List.forall_mem_singleton.mpr trivial⟩
  cache row member := by cases member

theorem sharing_sound : sharing.Sound := Session.sound_of_none rfl sharing_closed

/-- The sample with a validator whose rules are written in one way or another. -/
def checking (rules : Written) : Outcome Nat × Session :=
  Session.makeValidator 0 [("code", .str "")] (.rules [("code", rules)])
    [("code.strict", .str "Too short")] none spelled

theorem sharing_tokens :
    (sharing.registries.item 0).tokenize "strict|required" = .ok strictTokens := by rfl

theorem sharing_parse : (Registry.parse "strict|required" (sharing.workspace 0)).1 = .ok [1, 3] := by
  have absent : (sharing.workspace 0).registry.cache.get? "strict|required" = none := rfl
  have read := Registry.tokens_uncached absent
  rw [show (sharing.workspace 0).registry.tokenize "strict|required" = .ok strictTokens from
    sharing_tokens] at read
  rw [Registry.parse, Task.bind_eq, read]
  rfl

end Sample

set_option maxRecDepth 4000 in
theorem Session.ruleString_spelledOut_sample :
    let ofString := Sample.checking (.value (.str "strict|required"))
    let ofList := Sample.checking (.list ([1, 3].map .rule))
    SameOutcome 0 ofString.2 ofList.2 ∧
      ((runValidator 0 ofString.2).2.validators.item 0).errors =
        [("code", [.str "Too short", .str "The code field is required"])] := by
  obtain ⟨tokens, ids, built, tokenized, asked, goes, same, _⟩ :=
    ruleString_spelledOut Sample.sharing_sound Sample.sharing_closed Sample.sharing_parse rfl
  obtain rfl := Except.ok.inj (Sample.sharing_tokens.symm.trans tokenized)
  obtain rfl : Sample.spelled = built := congrArg Prod.snd asked
  obtain rfl : [1, 3] = ids := Except.ok.inj (congrArg Prod.fst asked)
  have again : GoesOn 0 Sample.spelled Sample.spelled := ⟨.refl _, goes.closed, goes.sound⟩
  obtain ⟨sameId, agree⟩ := same Sample.spelled Sample.spelled Sample.spelled goes.closed again
    again again rfl rfl [] "code" [] (by decide) (by simp) [("code", .str "")]
    [("code.strict", .str "Too short")] none
  have listed : (Sample.checking (.list ([1, 3].map .rule))).1 = .ok 0 := by rfl
  have outcome : SameOutcome 0 (Sample.checking (.value (.str "strict|required"))).2
      (Sample.checking (.list ([1, 3].map .rule))).2 :=
    agree 0 (sameId.symm.trans listed) [] [] rfl
  exact ⟨outcome, outcome.errors.trans (by rfl)⟩

end FieldRules
