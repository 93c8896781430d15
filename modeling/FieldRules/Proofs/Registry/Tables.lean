import FieldRules.Proofs.Registry.Tokens
import FieldRules.Proofs.Workspace

/-! # Tables of existing rules

Nothing can be written as the rules of attributes but rules and functions that exist, and rule
strings. The rules of a rule string are made by what is registered, and all of that exists too. So
every table that is made from a sheet is sound, and stays so whatever tasks are done afterwards.
-/

namespace FieldRules

variable {w w' : Workspace}

/-- Whether everything exists that a maker of rules names. -/
def Factory.InUse (rules : RuleStore) : Factory → Prop
  | .shared id => id < rules.next
  | .ofClass _ => True
  | .callable c => c.InUse rules

mutual

/-- Whether everything exists that is written somewhere. -/
def Written.InUse (rules : RuleStore) : Written → Prop
  | .rule id => id < rules.next
  | .callable c => c.InUse rules
  | .list items | .tuple items => Written.AllInUse rules items
  | .ofClass _ | .value _ => True

/-- Whether everything exists that is written in a sequence. -/
def Written.AllInUse (rules : RuleStore) : List Written → Prop
  | [] => True
  | written :: rest => written.InUse rules ∧ Written.AllInUse rules rest

end

/-- Everything exists that a registry names, the tokens that it keeps included. -/
structure Workspace.Closed (w : Workspace) : Prop where
  entries : ∀ row ∈ w.registry.entries, row.2.InUse w.rules
  cache : ∀ row ∈ w.registry.cache, ∀ token ∈ row.2, token.factory.InUse w.rules

theorem Workspace.Closed.registered (closed : w.Closed) : w.registry.InUse w.rules :=
  fun identifier id member => closed.entries (identifier, .shared id) member

theorem Workspace.Closed.ofUnread (unread : w.registry.cache = [])
    (entries : ∀ row ∈ w.registry.entries, row.2.InUse w.rules) : w.Closed where
  entries := entries
  cache row member := by simp [unread] at member

/-- The built-in classes share no rules. -/
theorem Workspace.Closed.ofStandard (standard : w.registry = .standard) : w.Closed := by
  refine .ofUnread (standard ▸ rfl) fun row member => ?_
  rw [standard] at member
  obtain ⟨c, _, rfl⟩ := List.mem_map.mp member
  trivial

/-! ## What exists goes on existing -/

section

variable {rules rules' : RuleStore} (more : rules.next ≤ rules'.next)

include more

theorem Product.InUse.mono {product : Product} (used : product.InUse rules) :
    product.InUse rules' := by
  cases product with
  | shared id => exact Nat.lt_of_lt_of_le used more
  | fresh | value | foreign => trivial

theorem Callable.InUse.mono {c : Callable} (used : c.InUse rules) : c.InUse rules' :=
  fun arguments product given => (used arguments product given).mono more

theorem Factory.InUse.mono {factory : Factory} (used : factory.InUse rules) :
    factory.InUse rules' := by
  cases factory with
  | shared id => exact Nat.lt_of_lt_of_le used more
  | ofClass c => trivial
  | callable c => exact Callable.InUse.mono more used

theorem TableEntry.InUse.mono {entry : TableEntry} (used : entry.InUse rules) :
    entry.InUse rules' := by
  cases entry with
  | bound id => exact Nat.lt_of_lt_of_le used more
  | callable c => exact Callable.InUse.mono more used

end

mutual

theorem Written.InUse.mono {rules rules' : RuleStore} (more : rules.next ≤ rules'.next)
    {written : Written} (used : written.InUse rules) : written.InUse rules' := by
  cases written with
  | rule id => exact Nat.lt_of_lt_of_le used more
  | callable c => exact Callable.InUse.mono more used
  | list items | tuple items => exact Written.AllInUse.mono more used
  | ofClass | value => trivial

theorem Written.AllInUse.mono {rules rules' : RuleStore} (more : rules.next ≤ rules'.next)
    {items : List Written} (used : Written.AllInUse rules items) :
    Written.AllInUse rules' items := by
  cases items with
  | nil => trivial
  | cons first rest => exact ⟨Written.InUse.mono more used.1, Written.AllInUse.mono more used.2⟩

end

/-- What is closed stays so while rules are added. -/
theorem Workspace.Closed.mono (closed : w.Closed) (same : w'.registry = w.registry)
    (more : w.rules.next ≤ w'.rules.next) : w'.Closed where
  entries row member := (closed.entries row (same ▸ member)).mono more
  cache row member token inside := (closed.cache row (same ▸ member) token inside).mono more

namespace Task

/-- A task that keeps what there was, leaves everything closed, and gives what `given` says. -/
structure Keeps {α : Type} (w : Workspace) (task : Task α) (given : RuleStore → α → Prop) : Prop where
  kept : w.KeptIn (task w).2
  closed : (task w).2.Closed
  given : ∀ a, (task w).1 = .ok a → given (task w).2.rules a

namespace Keeps

variable {α β : Type} {given : RuleStore → α → Prop} {later : RuleStore → β → Prop}

theorem ofRun {task : Task α} {outcome : Outcome α} (ran : task w = (outcome, w'))
    (kept : w.KeptIn w') (closed : w'.Closed) (holds : ∀ a, outcome = .ok a → given w'.rules a) :
    Keeps w task given := by
  constructor
  · rwa [ran]
  · rwa [ran]
  · rwa [ran]

theorem ofPure (closed : w.Closed) {a : α} (holds : given w.rules a) : Keeps w (pure a) given :=
  ofRun rfl (.refl w) closed fun _ same => Except.ok.inj same ▸ holds

theorem ofOutcome (closed : w.Closed) {outcome : Outcome α}
    (holds : ∀ a, outcome = .ok a → given w.rules a) : Keeps w (Task.ofOutcome outcome) given :=
  ofRun rfl (.refl w) closed holds

theorem ofFault (closed : w.Closed) (fault : Fault) : Keeps w (throw fault : Task α) given :=
  ofRun rfl (.refl w) closed fun _ same => nomatch same

/-- What is done next starts where the first task has come to. -/
theorem bindRun {task : Task α} (first : Keeps w task given) {next : α → Task β}
    (second : ∀ a w', task w = (.ok a, w') → Keeps w' (next a) later) :
    Keeps w (task >>= next) later := by
  obtain ⟨kept, closed, _⟩ := first
  have bound := bind_eq task next w
  rcases ran : task w with ⟨fault | a, w'⟩
  · rw [ran] at bound kept closed
    exact ofRun bound kept closed fun _ same => nomatch same
  · rw [ran] at bound kept
    obtain ⟨keptLater, closedLater, holdsLater⟩ := second a w' ran
    exact ofRun bound (kept.trans keptLater) closedLater holdsLater

theorem bind {task : Task α} (first : Keeps w task given) {next : α → Task β}
    (second : ∀ a w', w.KeptIn w' → w'.Closed → given w'.rules a → Keeps w' (next a) later) :
    Keeps w (task >>= next) later := by
  refine first.bindRun fun a w' ran => ?_
  obtain ⟨kept, closed, holds⟩ := first
  rw [ran] at kept closed holds
  exact second a w' kept closed (holds a rfl)

theorem withState {next : Workspace → Task α} (first : Keeps w (next w) given) :
    Keeps w (get >>= next) given :=
  ofRun (bind_eq get next w) first.kept first.closed first.given

/-- Faults may be exchanged for others. -/
theorem rethrowing {task : Task α} (first : Keeps w task given) (change : Fault → Fault) :
    Keeps w (tryCatch task fun fault => throw (change fault)) given := by
  obtain ⟨kept, closed, holds⟩ := first
  have caught := tryCatch_eq task (fun fault => throw (change fault)) w
  rcases ran : task w with ⟨fault | a, w'⟩
  · rw [ran] at caught kept closed
    exact ofRun caught kept closed fun _ same => nomatch same
  · rw [ran] at caught kept closed holds
    exact ofRun caught kept closed holds

end Keeps

end Task

/-! ## What tasks give exists -/

theorem Workspace.Closed.adding (closed : w.Closed) (rule : Rule) :
    Workspace.Closed { w with rules := (w.rules.add rule).2 } :=
  closed.mono rfl (Nat.le_succ _)

theorem Task.addRule_keeps (closed : w.Closed) (rule : Rule) :
    Task.Keeps w (Task.addRule rule) fun rules id => id < rules.next :=
  .ofRun (Task.addRule_eq rule w) ((Workspace.KeptIn.refl w).adding rule) (closed.adding rule)
    fun _ same => Except.ok.inj same ▸ Nat.lt_succ_self _

theorem Callable.call_keeps (closed : w.Closed) {c : Callable} (used : c.InUse w.rules)
    (arguments : List Value) :
    Task.Keeps w (c.call arguments) fun rules product => product.InUse rules := by
  obtain ⟨seen, called⟩ := c.call_gives arguments w
  refine .ofRun called ((Workspace.KeptIn.refl w).noting seen w.events)
    ⟨closed.entries, closed.cache⟩ ?_
  intro product same
  exact used arguments product (Callable.run_of_gives same)

/-- What a maker gives is a rule that exists, or no rule at all. -/
def MadeInUse (rules : RuleStore) : RuleId ⊕ String → Prop
  | .inl id => id < rules.next
  | .inr _ => True

theorem Product.rule?_keeps (closed : w.Closed) {product : Product} (used : product.InUse w.rules) :
    Task.Keeps w product.rule? MadeInUse := by
  cases product with
  | shared id => exact .ofPure closed used
  | value | foreign => exact .ofPure closed trivial
  | fresh rule =>
      exact (Task.addRule_keeps closed rule).bind fun id w' _ closed' below =>
        .ofPure closed' below

theorem Factory.make_keeps (closed : w.Closed) {factory : Factory} (used : factory.InUse w.rules)
    (arguments : List Value) : Task.Keeps w (factory.make arguments) MadeInUse := by
  cases factory with
  | shared id => exact .ofPure closed used
  | ofClass c =>
      have built : Task.Keeps w (Task.ofOutcome (c.build arguments)) fun _ _ => True :=
        .ofOutcome closed fun _ _ => trivial
      exact built.bind fun rule w' _ closed' _ =>
        (Task.addRule_keeps closed' rule).bind fun _ w'' _ closed'' below =>
          .ofPure closed'' below
  | callable c =>
      exact (Callable.call_keeps closed used arguments).bind fun product w' _ closed' used' =>
        Product.rule?_keeps closed' used'

theorem Factory.construct_keeps (closed : w.Closed) {factory : Factory}
    (used : factory.InUse w.rules) (identifier : String) (arguments : List Value) :
    Task.Keeps w (factory.construct identifier arguments) fun rules id => id < rules.next := by
  have making := (Factory.make_keeps closed used arguments).rethrowing
    (buildFault identifier arguments)
  have checking : ∀ made w', w.KeptIn w' → w'.Closed → MadeInUse w'.rules made →
      Task.Keeps w' (match made with
        | .inl id => pure id
        | .inr typeName => throw (.invalidRule (.notARule identifier typeName)) : Task RuleId)
        fun rules id => id < rules.next := by
    intro made w' _ closed' given
    cases made with
    | inl id => exact .ofPure closed' given
    | inr typeName => exact .ofFault closed' _
  cases factory with
  | shared id =>
      simp only [construct]
      split
      · exact .ofPure closed used
      · exact .ofFault closed _
  | ofClass | callable => exact making.bind checking

/-! ## Rule strings -/

/-- Reading rule strings changes no entries. -/
theorem Workspace.KeptIn.reading (kept : w.KeptIn w') (cache : Keyed (List Token))
    (hits misses : Nat) :
    w.KeptIn { w' with registry := { w'.registry with cache, hits, misses } } :=
  ⟨kept.entries, kept.next, kept.cleared⟩

theorem Registry.tokens_cached {spec : String} {read : List Token}
    (cached : w.registry.cache.get? spec = some read) :
    tokens spec w =
      (.ok read, { w with registry := { w.registry with hits := w.registry.hits + 1 } }) := by
  simp only [tokens, change, Task.bind_eq, Task.get_eq, Task.modify_eq, Task.pure_eq, cached]

/-- What is read anew is kept if it is well-formed. -/
theorem Registry.tokens_uncached {spec : String} (absent : w.registry.cache.get? spec = none) :
    let missed := { w.registry with misses := w.registry.misses + 1 }
    tokens spec w =
      match w.registry.tokenize spec with
      | .error fault => (.error fault, { w with registry := missed })
      | .ok read =>
        (.ok read, { w with
          registry := { missed with cache := missed.cache.put spec read }
          events := w.events ++ [.parsed spec read.length] }) := by
  intro missed
  have sameEntries : missed.entries = w.registry.entries := rfl
  simp only [tokens, change, Task.bind_eq, Task.get_eq, Task.modify_eq, Task.ofOutcome_eq, absent]
  rw [← tokenize_entries sameEntries]
  cases missed.tokenize spec with
  | error fault => rfl
  | ok read => rfl

/-- A string that is kept is given as it was read, any other as the entries are now. -/
theorem Registry.tokens_outcome (spec : String) (w : Workspace) :
    (tokens spec w).1 =
      match w.registry.cache.get? spec with
      | some kept => .ok kept
      | none => w.registry.tokenize spec := by
  cases cached : w.registry.cache.get? spec with
  | some kept => rw [tokens_cached cached]
  | none =>
      rw [tokens_uncached cached]
      cases w.registry.tokenize spec <;> rfl

theorem Registry.tokens_rules (spec : String) (w : Workspace) : (tokens spec w).2.rules = w.rules := by
  cases cached : w.registry.cache.get? spec with
  | some kept => rw [tokens_cached cached]
  | none =>
      rw [tokens_uncached cached]
      cases w.registry.tokenize spec <;> rfl

theorem Registry.tokens_keeps (closed : w.Closed) (spec : String) :
    Task.Keeps w (tokens spec) fun rules read => ∀ token ∈ read, token.factory.InUse rules := by
  have same := Workspace.KeptIn.refl w
  cases cached : w.registry.cache.get? spec with
  | some read =>
      refine .ofRun (tokens_cached cached) (same.reading _ _ _) ⟨closed.entries, closed.cache⟩ ?_
      intro _ given
      obtain rfl := Except.ok.inj given
      exact closed.cache (spec, read) (Keyed.mem_of_get? cached)
  | none =>
      have ran := tokens_uncached cached
      cases tokenized : w.registry.tokenize spec with
      | error fault =>
          simp only [tokenized] at ran
          exact .ofRun ran (same.reading _ _ _) ⟨closed.entries, closed.cache⟩
            fun _ given => nomatch given
      | ok read =>
          simp only [tokenized] at ran
          have used : ∀ token ∈ read, token.factory.InUse w.rules := by
            intro token member
            have entry := Token.readAll_factory tokenized token member
            exact closed.entries _ (Keyed.mem_of_get? entry)
          refine .ofRun ran ((same.reading _ _ _).noting _ _) ⟨closed.entries, ?_⟩ ?_
          · intro row member
            rcases Keyed.mem_put member with rfl | old
            · exact used
            · exact closed.cache row old
          · intro _ given
            obtain rfl := Except.ok.inj given
            exact used

theorem Registry.buildTokens_keeps (closed : w.Closed) {tokens : List Token}
    (used : ∀ token ∈ tokens, token.factory.InUse w.rules) :
    Task.Keeps w (buildTokens tokens) fun rules ids => ∀ id ∈ ids, id < rules.next := by
  induction tokens generalizing w with
  | nil => exact .ofPure closed fun id member => nomatch member
  | cons token rest ih =>
      obtain ⟨first, others⟩ := List.forall_mem_cons.mp used
      refine (Factory.construct_keeps closed first _ _).bind fun id w' kept closed' below => ?_
      have others' : ∀ token ∈ rest, token.factory.InUse w'.rules :=
        fun token member => (others token member).mono kept.next
      refine (ih closed' others').bind fun ids w'' kept' closed'' allBelow => ?_
      refine .ofPure closed'' (List.forall_mem_cons.mpr ⟨?_, allBelow⟩)
      exact Nat.lt_of_lt_of_le below kept'.next

theorem Registry.parse_keeps (closed : w.Closed) (spec : String) :
    Task.Keeps w (parse spec) fun rules ids => ∀ id ∈ ids, id < rules.next :=
  (tokens_keeps closed spec).bind fun _ _ _ closed' used => buildTokens_keeps closed' used

/-! ## Tables -/

theorem Workspace.KeptIn.sound (kept : w.KeptIn w') {table : RuleTable} (sound : table.Sound w) :
    table.Sound w' where
  distinct := sound.distinct
  used row member entry inside := (sound.used row member entry inside).mono kept.next
  registered := kept.registryInUse sound.registered

theorem Written.AllInUse.forall {rules : RuleStore} {items : List Written}
    (used : AllInUse rules items) : ∀ written ∈ items, written.InUse rules := by
  induction items with
  | nil => exact fun written member => nomatch member
  | cons first rest ih => exact List.forall_mem_cons.mpr ⟨used.1, ih used.2⟩

theorem TableEntry.ofWritten_inUse {rules : RuleStore} {written : Written}
    (used : written.InUse rules) {entry : TableEntry} (given : ofWritten rules written = .ok entry) :
    entry.InUse rules := by
  cases written with
  | rule id | callable c =>
      obtain rfl := Except.ok.inj given
      exact used
  | ofClass | value | list | tuple => exact nomatch given

theorem TableEntry.ofSequence_inUse {rules : RuleStore} {items : List Written}
    (used : ∀ written ∈ items, written.InUse rules) {entries : List TableEntry}
    (given : ofSequence rules items = .ok entries) : ∀ entry ∈ entries, entry.InUse rules := by
  induction items generalizing entries with
  | nil =>
      obtain rfl := Except.ok.inj given
      exact fun entry member => nomatch member
  | cons written rest ih =>
      obtain ⟨first, others⟩ := List.forall_mem_cons.mp used
      simp only [ofSequence] at given
      rcases here : ofWritten rules written with fault | entry
      · simp [here, bind, Except.bind] at given
      · rcases later : ofSequence rules rest with fault | entries'
        · simp [here, later, bind, Except.bind] at given
        · simp only [here, later, bind, Except.bind, pure, Except.pure, Except.ok.injEq] at given
          subst given
          exact List.forall_mem_cons.mpr ⟨ofWritten_inUse first here, ih others later⟩

theorem RuleTable.attributeEntries_str (spec : String) (w : Workspace) :
    attributeEntries (.value (.str spec)) w =
      ((Registry.parse spec w).1.map (List.map .bound), (Registry.parse spec w).2) := by
  simp only [attributeEntries, Task.bind_eq, Task.get_eq, Task.pure_eq]
  rcases Registry.parse spec w with ⟨fault | ids, w'⟩ <;> rfl

theorem RuleTable.attributeEntries_keeps (closed : w.Closed) {written : Written}
    (used : written.InUse w.rules) :
    Task.Keeps w (attributeEntries written) fun rules entries =>
      ∀ entry ∈ entries, entry.InUse rules := by
  refine .withState ?_
  have single : Task.Keeps w
      (do return [← Task.ofOutcome (TableEntry.ofWritten w.rules written)]) fun rules entries =>
        ∀ entry ∈ entries, entry.InUse rules := by
    have one : Task.Keeps w (Task.ofOutcome (TableEntry.ofWritten w.rules written))
        fun rules entry => entry.InUse rules :=
      .ofOutcome closed fun entry given => TableEntry.ofWritten_inUse used given
    exact one.bind fun entry w' _ closed' own =>
      .ofPure closed' (List.forall_mem_singleton.mpr own)
  have several : ∀ items, (∀ other ∈ items, Written.InUse w.rules other) → Task.Keeps w
      (Task.ofOutcome (TableEntry.ofSequence w.rules items)) fun rules entries =>
        ∀ entry ∈ entries, entry.InUse rules :=
    fun items itemsUsed =>
      .ofOutcome closed fun entries given => TableEntry.ofSequence_inUse itemsUsed given
  cases written with
  | rule | callable | ofClass => exact single
  | list items | tuple items => exact several items used.forall
  | value v =>
      have values : ∀ items : List Value, ∀ other ∈ items.map Written.value,
          other.InUse w.rules := by
        intro items other member
        obtain ⟨item, _, rfl⟩ := List.mem_map.mp member
        trivial
      cases v with
      | str spec =>
          refine (Registry.parse_keeps closed spec).bind fun ids w' _ closed' below => ?_
          refine .ofPure closed' fun entry member => ?_
          obtain ⟨id, inside, rfl⟩ := List.mem_map.mp member
          exact below id inside
      | list items | tuple items => exact several _ (values items)
      | _ => exact single

/-- A table has the attributes of what it is made from, and all that it names exists. -/
theorem RuleTable.ofEntries_keeps (closed : w.Closed) {entries : Keyed Written}
    (used : ∀ row ∈ entries, row.2.InUse w.rules) :
    Task.Keeps w (ofEntries entries) fun rules table =>
      Keyed.names table = entries.names ∧ ∀ row ∈ table, ∀ entry ∈ row.2, entry.InUse rules := by
  induction entries generalizing w with
  | nil => exact .ofPure closed ⟨rfl, fun row member => nomatch member⟩
  | cons row rest ih =>
      obtain ⟨name, written⟩ := row
      obtain ⟨first, others⟩ := List.forall_mem_cons.mp used
      refine (attributeEntries_keeps closed first).bind fun own w' kept closed' ownUsed => ?_
      have others' : ∀ row ∈ rest, row.2.InUse w'.rules := fun row member =>
        (others row member).mono kept.next
      refine (ih closed' others').bind fun table w'' kept' closed'' ⟨sameNames, allUsed⟩ => ?_
      refine .ofPure closed'' ⟨?_, List.forall_mem_cons.mpr ⟨?_, allUsed⟩⟩
      · exact congrArg (name :: ·) sameNames
      · exact fun entry member => (ownUsed entry member).mono kept'.next

theorem RuleTable.ofSheet_listed {sheet : RuleSheet} {entries : Keyed Written}
    (listed : sheet.entries = .ok entries) : ofSheet sheet w = ofEntries entries w := by
  simp only [ofSheet, Task.bind_eq, Task.ofOutcome_eq, listed]

/-- A table that is made from a sheet is sound, and stays so. -/
theorem RuleTable.ofSheet_sound (closed : w.Closed) {sheet : RuleSheet} {entries : Keyed Written}
    (listed : sheet.entries = .ok entries) (distinct : entries.names.Nodup)
    (used : ∀ row ∈ entries, row.2.InUse w.rules) {table : RuleTable}
    (made : (ofSheet sheet w).1 = .ok table) (kept : (ofSheet sheet w).2.KeptIn w') :
    table.Sound w' := by
  rw [ofSheet_listed listed] at made kept
  obtain ⟨_, closed', holds⟩ := ofEntries_keeps closed used
  obtain ⟨sameNames, allUsed⟩ := holds table made
  have sound : table.Sound (ofEntries entries w).2 := by
    refine ⟨?_, allUsed, closed'.registered⟩
    rw [sameNames]
    exact distinct
  exact kept.sound sound

end FieldRules
