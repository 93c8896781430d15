import FieldRules.Proofs.Registry.Effects

/-! # Rules that are shared on purpose

A registry shares a rule that was registered as it is; a class makes a new rule each time. So two
places of rule strings hold the same rule only where the tokens name it. Which rules a registry
shares is a matter of what was registered: `effect_shares` says that no operation shares a rule that
it was not asked to register. -/

namespace FieldRules

variable {w w' : Workspace} {base rules : RuleStore} {id : RuleId}

/-- Whether a maker is a rule that all share or a class, and no function. -/
def Factory.IsPlain : Factory → Prop
  | .shared _ | .ofClass _ => True
  | .callable _ => False

instance : DecidablePred Factory.IsPlain
  | .shared _ | .ofClass _ => isTrue trivial
  | .callable _ => isFalse False.elim

/-- A rule that a rule string was made into, with the token that it comes from. -/
structure Place where
  token : Token
  id : RuleId

namespace Place

/-- Whether the token of a place names a rule or a class. -/
def IsPlain (place : Place) : Prop := place.token.factory.IsPlain

/-- Whether the token of a place names the very rule. -/
def IsShared (place : Place) : Prop := place.token.factory = .shared place.id

instance (place : Place) : Decidable place.IsPlain :=
  inferInstanceAs (Decidable place.token.factory.IsPlain)

instance : DecidablePred IsShared
  | ⟨⟨_, _, .shared own⟩, id⟩ =>
    decidable_of_iff (own = id) ⟨congrArg Factory.shared, Factory.shared.inj⟩
  | ⟨⟨_, _, .ofClass _⟩, _⟩ | ⟨⟨_, _, .callable _⟩, _⟩ => isFalse Factory.noConfusion

theorem parts_mem {tokens : List Token} {ids : List RuleId} {place : Place}
    (member : place ∈ List.zipWith mk tokens ids) : place.token ∈ tokens ∧ place.id ∈ ids := by
  induction tokens generalizing ids with
  | nil => simp at member
  | cons token rest ih =>
      cases ids with
      | nil => simp at member
      | cons id others =>
          cases member with
          | head => exact ⟨List.mem_cons_self, List.mem_cons_self⟩
          | tail _ inRest =>
              obtain ⟨token, id⟩ := ih inRest
              exact ⟨List.mem_cons_of_mem _ token, List.mem_cons_of_mem _ id⟩

end Place

/-! ## Rule strings -/

theorem Factory.made_plain {factory : Factory} (plain : factory.IsPlain) {identifier : String}
    {arguments : List Value} {made : MadeRule}
    (given : factory.made identifier arguments = .ok made) :
    (∃ id, factory = .shared id ∧ made = .shared id) ∨ ∃ rule, made = .fresh rule := by
  cases factory with
  | shared id =>
      simp only [Factory.made] at given
      split at given
      · cases given
        exact .inl ⟨id, rfl, rfl⟩
      · cases given
  | ofClass c =>
      simp only [Factory.made, product] at given
      cases built : c.build arguments with
      | error cause =>
          rw [built] at given
          cases given
      | ok rule =>
          rw [built] at given
          cases given
          exact .inr ⟨rule, rfl⟩
  | callable c => exact plain.elim

namespace Registry

theorem buildTokens_cons {token : Token} {rest : List Token} {ids : List RuleId}
    (ran : buildTokens (token :: rest) w = (.ok ids, w')) :
    ∃ made seen others, token.made = .ok made ∧ ids = (made.place w.rules).1 :: others ∧
      buildTokens rest { w with rules := (made.place w.rules).2, seen } = (.ok others, w') := by
  obtain ⟨id, between, first, ran⟩ := Task.bind_ran ran
  obtain ⟨others, last, later, ran⟩ := Task.bind_ran ran
  cases ran
  obtain ⟨seen, built⟩ := token.factory.construct_eq token.identifier (token.arguments.map .str) w
  rw [Token.build, built] at first
  cases given : token.factory.made token.identifier (token.arguments.map .str) with
  | error fault =>
      rw [given] at first
      cases first
  | ok made =>
      rw [given] at first
      cases first
      exact ⟨made, seen, others, given, rfl, later⟩

/-- Where rules of tokens come from: a rule or a class gives either the very rule that the token
    names, or one that did not exist before. -/
theorem buildTokens_origin {tokens : List Token} {ids : List RuleId}
    (used : ∀ token ∈ tokens, token.factory.InUse base) (before : base.next ≤ w.rules.next)
    (ran : buildTokens tokens w = (.ok ids, w')) :
    ∀ place ∈ List.zipWith Place.mk tokens ids, place.IsPlain →
      place.IsShared ∧ place.id < base.next ∨ w.rules.next ≤ place.id := by
  induction tokens generalizing w ids with
  | nil => simp
  | cons token rest ih =>
      obtain ⟨firstUsed, restUsed⟩ := List.forall_mem_cons.mp used
      obtain ⟨made, seen, others, given, rfl, later⟩ := buildTokens_cons ran
      have more := (made.place_grown w.rules).next
      intro place member plain
      rw [List.zipWith_cons_cons] at member
      cases member with
      | head =>
          cases Factory.made_plain plain given with
          | inl named =>
              obtain ⟨id, shared, rfl⟩ := named
              exact .inl ⟨shared, Factory.made_inUse firstUsed given⟩
          | inr isNew =>
              obtain ⟨rule, rfl⟩ := isNew
              exact .inr (Nat.le_refl _)
      | tail _ inRest =>
          cases ih restUsed (Nat.le_trans before more) later place inRest plain with
          | inl shared => exact .inl shared
          | inr isNew => exact .inr (Nat.le_trans more isNew)

/-- Two places of a rule string hold the same rule only where both tokens name it. -/
theorem buildTokens_apart {tokens : List Token} {ids : List RuleId}
    (used : ∀ token ∈ tokens, token.factory.InUse base) (before : base.next ≤ w.rules.next)
    (ran : buildTokens tokens w = (.ok ids, w')) :
    (List.zipWith Place.mk tokens ids).Pairwise fun a b =>
      a.IsPlain → b.IsPlain → a.id = b.id → a.IsShared ∧ b.IsShared := by
  induction tokens generalizing w ids with
  | nil => simp
  | cons token rest ih =>
      obtain ⟨firstUsed, restUsed⟩ := List.forall_mem_cons.mp used
      obtain ⟨made, seen, others, given, rfl, later⟩ := buildTokens_cons ran
      have more := (made.place_grown w.rules).next
      rw [List.zipWith_cons_cons]
      refine .cons ?_ (ih restUsed (Nat.le_trans before more) later)
      intro b member plain plain' same
      have origin := buildTokens_origin restUsed (Nat.le_trans before more) later b member plain'
      -- A rule that the first token names existed from the start, and a rule that it makes is older
      -- than those that the others make.
      cases Factory.made_plain plain given with
      | inl named =>
          obtain ⟨id, shared, rfl⟩ := named
          have existed : id < base.next := Factory.made_inUse firstUsed given
          cases origin with
          | inl sharedToo => exact ⟨shared, sharedToo.1⟩
          | inr isNew =>
              have here : id = b.id := same
              have late := Nat.le_trans before (Nat.le_trans more isNew)
              exact absurd (here ▸ existed) (Nat.not_lt.mpr late)
      | inr isNew =>
          obtain ⟨rule, rfl⟩ := isNew
          have here : w.rules.next = b.id := same
          cases origin with
          | inl shared => exact absurd (here ▸ shared.2) (Nat.not_lt.mpr before)
          | inr isNewer => exact absurd (here ▸ isNewer) (Nat.not_succ_le_self _)

theorem buildTokens_exist {tokens : List Token} {ids : List RuleId}
    (used : ∀ token ∈ tokens, token.factory.InUse base) (before : base.next ≤ w.rules.next)
    (ran : buildTokens tokens w = (.ok ids, w')) : ∀ id ∈ ids, id < w'.rules.next := by
  induction tokens generalizing w ids with
  | nil =>
      cases ran
      simp
  | cons token rest ih =>
      obtain ⟨firstUsed, restUsed⟩ := List.forall_mem_cons.mp used
      obtain ⟨made, seen, others, given, rfl, later⟩ := buildTokens_cons ran
      have more := (made.place_grown w.rules).next
      have grown := buildTokens_grown rest { w with rules := (made.place w.rules).2, seen }
      rw [later] at grown
      intro id member
      cases member with
      | head =>
          have madeUsed := Factory.made_inUse firstUsed given
          exact Nat.lt_of_lt_of_le (MadeRule.InUse.mono madeUsed before).place_lt grown.next
      | tail _ inRest => exact ih restUsed (Nat.le_trans before more) later id inRest

/-! ## What is registered -/

/-- Whether a registry shares a rule: under an identifier, or in a rule string that it keeps. -/
inductive Shares (registry : Registry) (id : RuleId) : Prop where
  | entry {identifier : String} (member : (identifier, Factory.shared id) ∈ registry.entries)
  | kept {row : String × List Token} {token : Token} (member : row ∈ registry.cache)
      (inside : token ∈ row.2) (named : token.factory = .shared id)

variable {registry registry' : Registry} {spec : String} {read : List Token}

theorem Shares.mono (shares : registry'.Shares id)
    (entries : ∀ row ∈ registry'.entries, row ∈ registry.entries)
    (cache : ∀ row ∈ registry'.cache, row ∈ registry.cache) : registry.Shares id := by
  cases shares with
  | entry member => exact .entry (entries _ member)
  | kept member inside named => exact .kept (cache _ member) inside named

theorem tokenize_shares (given : registry.tokenize spec = .ok read) {token : Token}
    (member : token ∈ read) (named : token.factory = .shared id) : registry.Shares id := by
  have found := Token.readAll_factory given token member
  rw [named] at found
  exact .entry (Keyed.mem_of_get? found)

/-- The rules that the tokens of a rule string name are shared by the registry. -/
theorem reading_shares (given : registry.reading spec = .ok read) {token : Token}
    (member : token ∈ read) (named : token.factory = .shared id) : registry.Shares id := by
  unfold reading at given
  split at given
  next kept cached =>
    cases given
    exact .kept (Keyed.mem_of_get? cached) member named
  next => exact tokenize_shares given member named

theorem asked_shares (shares : (registry.asked spec).Shares id) : registry.Shares id := by
  unfold asked at shares
  split at shares
  next => exact shares.mono (fun _ member => member) fun _ member => member
  next =>
    split at shares
    next => exact shares.mono (fun _ member => member) fun _ member => member
    next read given =>
      cases shares with
      | entry member => exact .entry member
      | kept member inside named =>
          cases Keyed.mem_put member with
          | inl new =>
              cases new
              exact tokenize_shares given inside named
          | inr old => exact .kept old inside named

theorem ofWritten_shared {written : Written}
    (checked : Factory.ofWritten rules written = .ok (.shared id)) : written = .rule id := by
  cases written with
  | rule own =>
      cases checked
      rfl
  | ofClass c => cases c <;> cases checked
  | callable | value | list | tuple => cases checked

theorem extended_shares {entries : List (Option String × Written)}
    (shares : (registry.extended rules entries).Shares id) :
    registry.Shares id ∨ ∃ entry ∈ entries, entry.2 = .rule id := by
  unfold extended at shares
  split at shares
  next passed given =>
    cases shares with
    | entry member =>
        cases Keyed.mem_putAll member with
        | inl old => exact .inl (.entry old)
        | inr new =>
            obtain ⟨entry, inside, checked⟩ := Outcome.mapM_ok given new
            exact .inr ⟨entry, inside, ofWritten_shared (prepared_factory checked)⟩
    | kept member inside named => exact .inl (.kept member inside named)
  next => exact .inl shares

/-- No operation makes a registry share a rule that it was not asked to register. -/
theorem Operation.effect_shares {operation : Operation}
    (shares : (operation.effect rules registry).Shares id) :
    registry.Shares id ∨ ∃ entry ∈ operation.entries, entry.2 = .rule id := by
  cases operation with
  | register written identifier => exact extended_shares shares
  | extend entries => exact extended_shares shares
  | parse spec | read spec => exact .inl (asked_shares shares)
  | clear =>
      exact .inl (shares.mono (fun _ member => member) fun _ none => absurd none List.not_mem_nil)

/-- What a registry shares exists. -/
theorem Shares.existing (closed : w.Closed) (shares : w.registry.Shares id) :
    id < w.rules.next := by
  cases shares with
  | entry member => exact closed.entries _ member
  | kept member inside named =>
      have used := closed.cache _ member _ inside
      rw [named] at used
      exact used

end Registry

end FieldRules
