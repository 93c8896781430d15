import FieldRules.Proofs.Registry.Sharing
import FieldRules.Proofs.Session.Building

/-! # Rules of different rule strings

Rule strings share tokens, through what registries keep, but no rules: a class makes a new rule each
time, whose identity nothing has had before. The only rules that come back are those that were
registered as they are. Such a rule may itself have come from a rule string: then the place where it
was made is the one place where the token does not name it.

What exists is below `rules.next`, and what is made is not; this carries over histories, since there
are never fewer rules.
-/

namespace FieldRules

variable {s : Session} {id : RuleId}

/-- The rules of a rule string with the tokens that they come from, if it can be made into rules. -/
def Registry.places (spec : String) (w : Workspace) : List Place :=
  match (tokens spec w).1, (parse spec w).1 with
  | .ok tokens, .ok ids => List.zipWith Place.mk tokens ids
  | _, _ => []

namespace RegistryUse

/-- The entries that a use is to register. -/
def entries : RegistryUse → List (Option String × Written)
  | create _ entries => entries
  | copy _ => []
  | operate _ operation => operation.entries

end RegistryUse

namespace RuleUse

/-- Whether a use is to register a rule as it is. -/
def Registers (id : RuleId) : RuleUse → Prop
  | ofRegistry use => ∃ entry ∈ use.entries, entry.2 = .rule id
  | _ => False

/-- The places of a use that makes a rule string into rules. -/
def places (s : Session) : RuleUse → List Place
  | ofRegistry (.operate r (.parse spec)) => Registry.places spec (s.workspace r)
  | _ => []

/-- The rules that a use gives back. -/
def returned (s : Session) : RuleUse → List RuleId
  | make _ => [s.rules.next]
  | build r identifier arguments =>
    (Registry.build identifier arguments (s.workspace r)).1.toOption.toList
  | ofRegistry (.operate r (.parse spec)) =>
    ((Registry.parse spec (s.workspace r)).1.toOption).getD []
  | _ => []

/-- The rules that a history gives back. -/
def returnedIn (s : Session) : List RuleUse → List RuleId
  | [] => []
  | use :: rest => use.returned s ++ returnedIn (use.perform s) rest

end RuleUse

/-- Whether a registry shares a rule. -/
def Session.Shares (s : Session) (id : RuleId) : Prop :=
  ∃ r < s.registries.next, (s.registries.item r).Shares id

/-! ## One rule string -/

namespace Registry

variable {w : Workspace} {spec : String}

theorem parse_ran {ids : List RuleId} {w' : Workspace} (ran : parse spec w = (.ok ids, w')) :
    ∃ read between, (tokens spec w).1 = .ok read ∧ between.rules = w.rules ∧
      w.registry.reading spec = .ok read ∧ buildTokens read between = (.ok ids, w') := by
  obtain ⟨read, between, first, built⟩ := Task.bind_ran ran
  have rules := tokens_rules spec w
  have outcome : (tokens spec w).1 = w.registry.reading spec := tokens_outcome spec w
  rw [first] at rules outcome
  exact ⟨read, between, by rw [first], rules, outcome.symm, built⟩

theorem places_ran (spec : String) (w : Workspace) :
    places spec w = [] ∨
      ∃ read ids between w', between.rules = w.rules ∧ w.registry.reading spec = .ok read ∧
        buildTokens read between = (.ok ids, w') ∧
        places spec w = List.zipWith Place.mk read ids := by
  cases ran : parse spec w with
  | mk outcome w' =>
      cases outcome with
      | error fault => simp [places, ran]
      | ok ids =>
          obtain ⟨read, between, first, rules, given, built⟩ := parse_ran ran
          exact .inr ⟨read, ids, between, w', rules, given, built, by simp [places, first, ran]⟩

/-- A rule or a class gives the very rule that the token names, which the registry shares, or one
    that did not exist before. -/
theorem places_origin (closed : w.Closed) {place : Place} (member : place ∈ places spec w)
    (plain : place.IsPlain) :
    place.IsShared ∧ w.registry.Shares place.id ∨ w.rules.next ≤ place.id := by
  cases places_ran spec w with
  | inl none => simp [none] at member
  | inr made =>
      obtain ⟨read, ids, between, w', rules, given, built, all⟩ := made
      rw [all] at member
      have used := reading_inUse closed given
      rw [← rules] at used ⊢
      cases buildTokens_origin used (Nat.le_refl _) built place member plain with
      | inl named =>
          have inside := (Place.parts_mem member).1
          exact .inl ⟨named.1, reading_shares given inside named.1⟩
      | inr isNew => exact .inr isNew

theorem places_apart (closed : w.Closed) (spec : String) :
    (places spec w).Pairwise fun a b =>
      a.IsPlain → b.IsPlain → a.id = b.id → a.IsShared ∧ b.IsShared := by
  cases places_ran spec w with
  | inl none => simp [none]
  | inr made =>
      obtain ⟨read, ids, between, w', rules, given, built, all⟩ := made
      have used := reading_inUse closed given
      rw [← rules] at used
      rw [all]
      exact buildTokens_apart used (Nat.le_refl _) built

theorem parse_exist (closed : w.Closed) {ids : List RuleId} {w' : Workspace}
    (ran : parse spec w = (.ok ids, w')) : ∀ id ∈ ids, id < w'.rules.next := by
  obtain ⟨read, between, -, rules, given, built⟩ := parse_ran ran
  have used := reading_inUse closed given
  rw [← rules] at used
  exact buildTokens_exist used (Nat.le_refl _) built

end Registry

/-! ## Uses -/

namespace Session

theorem SameRegistries.shares {s' : Session} (same : SameRegistries s s') (shares : s'.Shares id) :
    s.Shares id := by
  obtain ⟨r, below, shared⟩ := shares
  rw [same.number] at below
  rw [same.item] at shared
  exact ⟨r, below, shared⟩

theorem Shares.existing (formed : s.WellFormed) (shares : s.Shares id) : id < s.rules.next := by
  obtain ⟨r, below, shared⟩ := shares
  exact Registry.Shares.existing (formed.closed r below) shared

end Session

/-- Registries begin without rules that they share. -/
theorem Registry.begin_unshared (withStandard : Bool) (id : RuleId) :
    ¬ (if withStandard then standard else {} : Registry).Shares id := by
  intro shares
  cases withStandard with
  | true =>
      cases shares with
      | entry member =>
          obtain ⟨c, _, same⟩ := List.mem_map.mp member
          cases same
      | kept member => exact absurd member List.not_mem_nil
  | false =>
      cases shares with
      | entry member => exact absurd member List.not_mem_nil
      | kept member => exact absurd member List.not_mem_nil

theorem RegistryUse.Leaves.shares {use : RegistryUse} {registry : Registry}
    (leaves : Leaves s use registry) (shares : registry.Shares id) :
    s.Shares id ∨ ∃ entry ∈ use.entries, entry.2 = .rule id := by
  cases leaves with
  | kept below => exact .inl ⟨_, below, shares⟩
  | created withStandard entries =>
      cases Registry.Operation.effect_shares shares with
      | inl before => exact absurd before (Registry.begin_unshared withStandard id)
      | inr asked => exact .inr asked
  | @copied source below =>
      have own : (s.registries.item source).Shares id :=
        shares.mono (fun _ member => member) fun _ none => absurd none List.not_mem_nil
      exact .inl ⟨source, below, own⟩
  | operated below operation =>
      cases Registry.Operation.effect_shares shares with
      | inl before => exact .inl ⟨_, below, before⟩
      | inr asked => exact .inr asked

namespace RuleUse

open Session

theorem perform_next {use : RuleUse} (proper : use.Proper s) :
    s.rules.next ≤ (use.perform s).rules.next := by
  cases use with
  | ofRegistry own => exact (RegistryUse.perform_grown proper).next
  | make | build | change | check => exact (perform_same s (by simp)).next

/-- A rule is shared only after it has been registered as it is. -/
theorem perform_shares {use : RuleUse} (proper : use.Proper s)
    (shares : (use.perform s).Shares id) :
    s.Shares id ∨ use.Registers id := by
  cases use with
  | ofRegistry own =>
      obtain ⟨r, below, shared⟩ := shares
      exact (RegistryUse.perform_leaves proper below).shares shared
  | make | build | change | check => exact .inl ((perform_same s (by simp)).shares shares)

theorem after_next {history : List RuleUse} (proper : AllProper s history) :
    s.rules.next ≤ (after s history).rules.next :=
  after_invariant (P := fun s' => s.rules.next ≤ s'.rules.next)
    (fun _ _ _ isProper before => Nat.le_trans before (perform_next isProper)) proper
    (Nat.le_refl _)

theorem after_shares {history : List RuleUse} (proper : AllProper s history)
    (shares : (after s history).Shares id) : s.Shares id ∨ ∃ use ∈ history, use.Registers id := by
  let traced (s' : Session) : Prop :=
    s'.Shares id → s.Shares id ∨ ∃ use ∈ history, use.Registers id
  have every : traced (after s history) := by
    apply after_invariant _ proper .inl
    intro use member s' isProper before shares
    cases perform_shares isProper shares with
    | inl shared => exact before shared
    | inr registers => exact .inr ⟨use, member, registers⟩
  exact every shares

/-! ## What uses give back -/

theorem places_origin (formed : s.WellFormed) {use : RuleUse} (proper : use.Proper s)
    {place : Place} (member : place ∈ use.places s) (plain : place.IsPlain) :
    place.IsShared ∧ s.Shares place.id ∨ s.rules.next ≤ place.id := by
  unfold places at member
  split at member
  next r spec =>
    have closed := formed.closed r proper.1
    cases Registry.places_origin closed member plain with
    | inl named => exact .inl ⟨named.1, r, proper.1, named.2⟩
    | inr isNew => exact .inr isNew
  next => cases member

theorem places_apart (formed : s.WellFormed) {use : RuleUse} (proper : use.Proper s) :
    (use.places s).Pairwise fun a b =>
      a.IsPlain → b.IsPlain → a.id = b.id → a.IsShared ∧ b.IsShared := by
  unfold places
  split
  next r spec => exact Registry.places_apart (formed.closed r proper.1) spec
  next => exact .nil

/-- What is given back exists from then on. -/
theorem returned_exist (formed : s.WellFormed) {use : RuleUse} (proper : use.Proper s)
    (member : id ∈ use.returned s) : id < (use.perform s).rules.next := by
  unfold returned at member
  split at member
  next =>
    rw [List.mem_singleton.mp member]
    exact Nat.lt_succ_self _
  next r identifier arguments =>
    cases ran : Registry.build identifier arguments (s.workspace r) with
    | mk outcome w' =>
        have comes := Registry.build_comes identifier arguments (s.workspace r)
        show id < (Registry.build identifier arguments (s.workspace r)).2.rules.next
        rw [ran] at member comes ⊢
        cases outcome with
        | error fault => cases member
        | ok given =>
            obtain rfl := List.mem_singleton.mp member
            exact comes.exists (formed.formed r proper) rfl
  next r spec =>
    cases ran : Registry.parse spec (s.workspace r) with
    | mk outcome w' =>
        rw [ran] at member
        cases outcome with
        | error fault => cases member
        | ok ids =>
            show id < (Registry.parse spec (s.workspace r)).2.rules.next
            have existing := Registry.parse_exist (formed.closed r proper.1) ran id member
            rwa [ran]
  next => cases member

theorem places_returned {use : RuleUse} {place : Place} (member : place ∈ use.places s) :
    place.id ∈ use.returned s := by
  unfold places at member
  split at member
  next r spec =>
    unfold Registry.places at member
    split at member
    next read ids _ made =>
      have inside := (Place.parts_mem member).2
      simpa [returned, made, Except.toOption] using inside
    next => cases member
  next => cases member

/-- Making a rule string into rules registers nothing. -/
theorem places_unregistering {use : RuleUse} {place : Place} (member : place ∈ use.places s)
    (id : RuleId) : ¬ use.Registers id := by
  unfold places at member
  split at member
  next r spec =>
    intro registers
    obtain ⟨entry, none, _⟩ := registers
    cases none
  next => cases member

theorem returnedIn_exist (formed : s.WellFormed) {history : List RuleUse}
    (proper : AllProper s history) (member : id ∈ returnedIn s history) :
    id < (after s history).rules.next := by
  induction history generalizing s with
  | nil => cases member
  | cons use rest ih =>
      cases List.mem_append.mp member with
      | inl now =>
          exact Nat.lt_of_lt_of_le (returned_exist formed proper.1 now) (after_next proper.2)
      | inr later => exact ih (perform_wellFormed formed proper.1) proper.2 later

end RuleUse

namespace Session

open RuleUse

/-- Whether neither changing nor checking one rule changes another one. -/
def Apart (id other : RuleId) : Prop :=
  ∀ (s : Session) (f : Rule → Rule) (value : Value),
    ((change id f).perform s).rules.item other = s.rules.item other ∧
      ((check id value).perform s).rules.item other = s.rules.item other

theorem apart_of_ne {other : RuleId} (different : other ≠ id) : Apart id other :=
  fun _ _ _ => ⟨if_neg different, if_neg different⟩

/-- The rules that rule strings are made into, as far as the tokens name rules and classes. Two
    places of one rule string hold the same rule only where both tokens name it. Of two rule
    strings, each of any registry, the later one holds a rule of the earlier one only where its
    token names the rule; and so does the token of the earlier one, unless it has made the rule,
    which has been registered as it is in between. Every other rule of the later one is new: it did
    not exist, no registry shares it and nothing has given it back before. So what is done with it
    has no effect on the rules of the earlier one, nor the other way round. -/
theorem parsed_fresh (fresh : s.registries = ({} : Session).registries)
    {earlier between : List RuleUse} {first second : RuleUse}
    (proper : AllProper s (earlier ++ first :: (between ++ [second]))) :
    let s₁ := after s earlier
    let s₂ := after (first.perform s₁) between
    ((first.places s₁).Pairwise fun a b =>
      a.IsPlain → b.IsPlain → a.id = b.id → a.IsShared ∧ b.IsShared) ∧
    ∀ b ∈ second.places s₂, b.IsPlain →
      (¬ b.IsShared →
        s₂.rules.next ≤ b.id ∧ ¬ s₂.Shares b.id ∧
          b.id ∉ returnedIn s (earlier ++ first :: between)) ∧
      ∀ a ∈ first.places s₁, a.IsPlain →
        (a.id = b.id → b.IsShared ∧
          (a.IsShared ∨ s₁.rules.next ≤ a.id ∧ ∃ use ∈ between, use.Registers a.id)) ∧
        (¬ b.IsShared → Apart a.id b.id ∧ Apart b.id a.id) := by
  intro s₁ s₂
  obtain ⟨properEarlier, properLater⟩ := allProper_append proper
  obtain ⟨properBetween, properSecond⟩ := allProper_append properLater.2
  have formed₁ : s₁.WellFormed := after_wellFormed (start_wellFormed fresh) properEarlier
  have formedNext : (first.perform s₁).WellFormed := perform_wellFormed formed₁ properLater.1
  have formed₂ : s₂.WellFormed := after_wellFormed formedNext properBetween
  refine ⟨places_apart formed₁ properLater.1, ?_⟩
  intro b member plain
  have origin := places_origin formed₂ properSecond.1 member plain
  have unshared (other : ¬ b.IsShared) : s₂.rules.next ≤ b.id := by
    cases origin with
    | inl named => exact absurd named.1 other
    | inr isNew => exact isNew
  constructor
  · intro other
    have isNew := unshared other
    refine ⟨isNew, ?_, ?_⟩
    · intro shares
      exact Nat.not_lt.mpr isNew (shares.existing formed₂)
    · intro given
      have whole : AllProper s (earlier ++ first :: between) := by
        rw [← List.cons_append, ← List.append_assoc] at proper
        exact (allProper_append proper).1
      have existing := returnedIn_exist (start_wellFormed fresh) whole given
      rw [after_append] at existing
      exact Nat.not_lt.mpr isNew existing
  · intro a given plain'
    have existing : a.id < s₂.rules.next :=
      Nat.lt_of_lt_of_le (returned_exist formed₁ properLater.1 (places_returned given))
        (after_next properBetween)
    constructor
    · intro same
      cases origin with
      | inr isNew => exact absurd (same ▸ existing) (Nat.not_lt.mpr isNew)
      | inl named =>
          obtain ⟨isShared, shares⟩ := named
          refine ⟨isShared, ?_⟩
          cases places_origin formed₁ properLater.1 given plain' with
          | inl namedToo => exact .inl namedToo.1
          | inr isNew =>
              -- The rule was new in the first rule string, and the second one finds it shared.
              refine .inr ⟨isNew, ?_⟩
              rw [← same] at shares
              cases after_shares properBetween shares with
              | inr registered => exact registered
              | inl before =>
                  cases perform_shares properLater.1 before with
                  | inl old => exact absurd (old.existing formed₁) (Nat.not_lt.mpr isNew)
                  | inr registers => exact absurd registers (places_unregistering given a.id)
    · intro other
      have different : a.id ≠ b.id := Nat.ne_of_lt (Nat.lt_of_lt_of_le existing (unshared other))
      exact ⟨apart_of_ne different.symm, apart_of_ne different⟩

end Session

namespace Sample

open RegistryUse

/-- A rule is registered as it is. -/
def registeredAsIs : List RuleUse :=
  [.make present, .ofRegistry (operate 0 (.register (.rule 0) none))]

/-- A rule string that names the rule and a class. -/
def mixed : RuleUse := .ofRegistry (operate 0 (.parse "present|email"))

/-- The same rule string is read again, and the rule that it was made into is changed. -/
def meanwhile : List RuleUse :=
  [.ofRegistry (operate 0 .clear), .change 1 (·.skipping (.bool true))]

theorem registeredAsIs_proper :
    RuleUse.AllProper {} (registeredAsIs ++ mixed :: (meanwhile ++ [mixed])) := by
  refine ⟨trivial, ⟨by decide +kernel, registering_inUse (by decide +kernel)⟩,
    ⟨by decide +kernel, reading_inUse _ ""⟩, ⟨by decide +kernel, reading_inUse _ ""⟩, ?_,
    ⟨by decide +kernel, reading_inUse _ ""⟩, trivial⟩
  show 1 < Shelf.next _
  decide +kernel

end Sample

open RuleUse in
theorem Session.parsed_fresh_sample :
    let s₁ := after {} Sample.registeredAsIs
    let s₂ := after (Sample.mixed.perform s₁) Sample.meanwhile
    (Sample.mixed.places s₁).map Place.id = [0, 1] ∧
      (Sample.mixed.places s₂).map Place.id = [0, 2] ∧
      2 ∉ returnedIn {} (Sample.registeredAsIs ++ Sample.mixed :: Sample.meanwhile) ∧
      Apart 1 2 := by
  intro s₁ s₂
  have made : ∃ a ∈ Sample.mixed.places s₁, a.id = 1 ∧ a.IsPlain := by decide +kernel
  have again : ∃ b ∈ Sample.mixed.places s₂, b.id = 2 ∧ b.IsPlain ∧ ¬ b.IsShared := by
    decide +kernel
  obtain ⟨a, given, one, plain⟩ := made
  obtain ⟨b, member, two, plain', unshared⟩ := again
  obtain ⟨isNew, others⟩ := (parsed_fresh rfl Sample.registeredAsIs_proper).2 b member plain'
  have apart := ((others a given plain).2 unshared).1
  rw [one, two] at apart
  refine ⟨by decide +kernel, by decide +kernel, ?_, apart⟩
  rw [← two]
  exact (isNew unshared).2.2

open RuleUse RegistryUse in
/-- A rule that a rule string was made into comes back when it is registered as it is. -/
theorem Session.parsed_shared_later :
    let first : RuleUse := .ofRegistry (operate 0 (.parse "email"))
    let between : List RuleUse := [.ofRegistry (operate 0 (.register (.rule 0) (some "again")))]
    let second : RuleUse := .ofRegistry (operate 0 (.parse "again"))
    ∃ a ∈ first.places {}, ∃ b ∈ second.places (after (first.perform {}) between),
      a.id = b.id ∧ a.IsPlain ∧ b.IsPlain ∧ ¬ a.IsShared := by
  decide +kernel

end FieldRules
