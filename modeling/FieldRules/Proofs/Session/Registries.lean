import FieldRules.Proofs.Registry.Renaming
import FieldRules.Session.Rules

/-! # Registries side by side

A session holds any number of registries, all of which share the rules that exist. Yet a registry is
changed by nothing but what is done with itself: other registries have a part in it only as the
source that it was copied from, and that only by the entries of that moment. `after_item` says what a
registry is behind a history. The induction is over the uses of registries from the first to the
last; each of them is an operation on the registry, which comes to its effect, or leaves it as it is.
-/

namespace FieldRules

/-- What can be done with the registries of a session. -/
inductive RegistryUse where
  /-- Adds a registry, with the built-in classes or without them, and registers entries with it. -/
  | create (withStandard : Bool) (entries : List (Option String × Written))
  | copy (source : Nat)
  | operate (registry : Nat) (operation : Registry.Operation)

variable {s s' : Session} {r r' : Nat}

/-- An operation, with the rules that there are when it is performed. -/
structure Moment where
  operation : Registry.Operation
  rules : RuleStore

/-- The same operation where rules have other identities. -/
structure Moment.AlikeIn (f : RuleId → RuleId) (moment moment' : Moment) : Prop where
  operation : moment'.operation = moment.operation.renamed f
  rules : moment.operation.AlikeIn f moment.rules moment'.rules

/-- A registry behind operations on it. -/
def Registry.replayed (registry : Registry) (moments : List Moment) : Registry :=
  moments.foldl (fun registry moment => moment.operation.effect moment.rules registry) registry

theorem Registry.replayed_renamed {f : RuleId → RuleId} {moments moments' : List Moment}
    (alike : List.Forall₂ (Moment.AlikeIn f) moments moments') (registry : Registry) :
    (registry.renamed f).replayed moments' = (registry.replayed moments).renamed f := by
  induction alike generalizing registry with
  | nil => rfl
  | @cons moment moment' rest rest' first _ ih =>
      have step := Operation.effect_renamed registry first.rules
      rw [← first.operation] at step
      exact (congrArg (replayed · rest') step).trans (ih _)

namespace Session

/-! ## One use -/

/-- Everything exists that the registries of a session name. -/
def Closed (s : Session) : Prop := ∀ registry < s.registries.next, (s.workspace registry).Closed

/-- A session with one more registry. -/
def withRegistry (s : Session) (registry : Registry) : Session :=
  { s with registries := (s.registries.add registry).2 }

end Session

namespace RegistryUse

open Session

/-- What a use leaves behind, whether it succeeds or faults. -/
def perform (s : Session) : RegistryUse → Session
  | create withStandard entries => (newRegistry withStandard entries s).2
  | copy source => (copyRegistry source s).2
  | operate registry operation => s.absorb registry (operation.perform (s.workspace registry))

/-- Whether the registries and the rules exist that a use names. -/
def Proper (s : Session) : RegistryUse → Prop
  | create _ entries => (Registry.Operation.extend entries).InUse s.rules
  | copy source => source < s.registries.next
  | operate registry operation => registry < s.registries.next ∧ operation.InUse s.rules

/-- The operation on a registry that a use is, if it is one. -/
def own (registry : Nat) : RegistryUse → List Registry.Operation
  | operate other operation => if other = registry then [operation] else []
  | create _ _ | copy _ => []

end RegistryUse

namespace Session

open RegistryUse

/-- A registry begins with the built-in classes or empty, and then its entries are registered. -/
theorem create_perform (withStandard : Bool) (entries : List (Option String × Written))
    (s : Session) :
    (create withStandard entries).perform s =
      (operate s.registries.next (.extend entries)).perform
        (s.withRegistry (if withStandard then .standard else {})) := by
  let added := s.withRegistry (if withStandard then .standard else {})
  have ran : newRegistry withStandard entries s =
      (inRegistry s.registries.next (Registry.extend entries) >>= fun _ =>
        pure s.registries.next) added := rfl
  show (newRegistry withStandard entries s).2 =
    added.absorb s.registries.next (Registry.extend entries (added.workspace s.registries.next)).2
  rw [ran, Task.bind_eq, inRegistry]
  rcases Registry.extend entries (added.workspace s.registries.next) with ⟨fault | done, w⟩ <;> rfl

theorem copy_perform (source : Nat) (s : Session) :
    (copy source).perform s = s.withRegistry (s.registries.item source).copy := rfl

theorem withRegistry_item (registry : Registry) (existing : r < s.registries.next) :
    (s.withRegistry registry).registries.item r = s.registries.item r :=
  if_neg (Nat.ne_of_lt existing)

theorem withRegistry_new (s : Session) (registry : Registry) :
    (s.withRegistry registry).registries.item s.registries.next = registry :=
  if_pos rfl

theorem Closed.withRegistry (closed : s.Closed) {registry : Registry}
    (registryClosed : Workspace.Closed { registry, rules := s.rules }) :
    (s.withRegistry registry).Closed := by
  intro other below
  by_cases new : other = s.registries.next
  · subst new
    exact registryClosed.mono (withRegistry_new s registry) (Nat.le_refl _)
  · have earlier : other < s.registries.next := Nat.lt_of_le_of_ne (Nat.le_of_lt_succ below) new
    exact (closed other earlier).mono (withRegistry_item registry earlier) (Nat.le_refl _)

/-- An operation comes to its effect on its own registry. -/
theorem operate_item {operation : Registry.Operation} (used : operation.InUse s.rules) :
    ((operate r operation).perform s).registries.item r =
      operation.effect s.rules (s.registries.item r) :=
  (if_pos rfl).trans (Registry.Operation.perform_effect (w := s.workspace r) used).1

/-- Operations on other registries leave a registry as it is. -/
theorem operate_other {other : Nat} (different : r ≠ other) (operation : Registry.Operation) :
    ((operate other operation).perform s).registries.item r = s.registries.item r :=
  if_neg different

theorem Closed.operate (closed : s.Closed) (existing : r < s.registries.next)
    {operation : Registry.Operation} (used : operation.InUse s.rules) :
    ((RegistryUse.operate r operation).perform s).Closed := by
  -- The rules that the operation has made are there for all registries.
  have own := Registry.Operation.perform_closed (closed r existing) used
  have grown := (Registry.Operation.perform_effect (w := s.workspace r) used).2
  intro other below
  by_cases here : other = r
  · subst here
    exact own.mono (if_pos rfl) (Nat.le_refl _)
  · exact (closed other below).mono (operate_other here operation) grown.next

theorem operate_withRegistry {registry : Registry} {operation : Registry.Operation}
    (used : operation.InUse s.rules) :
    ((operate s.registries.next operation).perform (s.withRegistry registry)).registries.item
        s.registries.next =
      operation.effect s.rules registry := by
  have own := operate_item (s := s.withRegistry registry) (r := s.registries.next) used
  rwa [withRegistry_new] at own

end Session

namespace RegistryUse

open Session

theorem perform_next (use : RegistryUse) (s : Session) :
    s.registries.next ≤ (use.perform s).registries.next := by
  cases use with
  | create withStandard entries =>
      rw [create_perform]
      exact Nat.le_succ _
  | copy source => exact Nat.le_succ _
  | operate registry operation => exact Nat.le_refl _

/-- One use does to a registry what its operation does, if it is one on the registry, and else
    nothing. -/
theorem perform_item {use : RegistryUse} (proper : use.Proper s) (existing : r < s.registries.next) :
    (use.perform s).registries.item r =
      (s.registries.item r).replayed ((use.own r).map fun operation => ⟨operation, s.rules⟩) := by
  cases use with
  | create withStandard entries =>
      rw [create_perform, operate_other (Nat.ne_of_lt existing)]
      exact withRegistry_item _ existing
  | copy source =>
      rw [copy_perform]
      exact withRegistry_item _ existing
  | operate registry operation =>
      by_cases here : registry = r
      · subst here
        rw [operate_item proper.2]
        simp [own, Registry.replayed]
      · rw [operate_other (Ne.symm here)]
        simp [own, here, Registry.replayed]

theorem perform_closed (closed : s.Closed) {use : RegistryUse} (proper : use.Proper s) :
    (use.perform s).Closed := by
  cases use with
  | create withStandard entries =>
      rw [create_perform]
      refine Closed.operate (closed.withRegistry ?_) (Nat.lt_succ_self _) proper
      cases withStandard with
      | true => exact .ofStandard rfl
      | false => exact .ofUnread rfl (by simp)
  | copy source => exact closed.withRegistry (.ofUnread rfl (closed source proper).entries)
  | operate registry operation => exact closed.operate proper.1 proper.2

/-! ## Histories -/

/-- The session behind a history. -/
def after (s : Session) (history : List RegistryUse) : Session := history.foldl perform s

/-- Whether all that a history names exists when it is used. -/
def AllProper (s : Session) : List RegistryUse → Prop
  | [] => True
  | use :: rest => use.Proper s ∧ AllProper (use.perform s) rest

/-- The operations of a history on one registry, each with the rules that it finds. -/
def moments (r : Nat) (s : Session) : List RegistryUse → List Moment
  | [] => []
  | use :: rest =>
    (use.own r).map (fun operation => ⟨operation, s.rules⟩) ++ moments r (use.perform s) rest

theorem after_next (history : List RegistryUse) (s : Session) :
    s.registries.next ≤ (after s history).registries.next := by
  induction history generalizing s with
  | nil => exact Nat.le_refl _
  | cons use rest ih => exact Nat.le_trans (use.perform_next s) (ih (use.perform s))

theorem after_closed (closed : s.Closed) {history : List RegistryUse}
    (proper : AllProper s history) : (after s history).Closed := by
  induction history generalizing s with
  | nil => exact closed
  | cons use rest ih => exact ih (perform_closed closed proper.1) proper.2

/-- A registry is what its own operations make of it, whatever is done with others in between. -/
theorem after_item {history : List RegistryUse} (proper : AllProper s history)
    (existing : r < s.registries.next) :
    (after s history).registries.item r = (s.registries.item r).replayed (moments r s history) := by
  induction history generalizing s with
  | nil => rfl
  | cons use rest ih =>
      -- What the first use makes of the registry is what the other moments begin with.
      have first := perform_item proper.1 existing
      have later := ih proper.2 (Nat.lt_of_lt_of_le existing (use.perform_next s))
      rw [first, Registry.replayed, Registry.replayed, ← List.foldl_append] at later
      exact later

end RegistryUse

namespace Session

open RegistryUse

/-! ## Registries of two sessions -/

/-- Two registries that are the same under other identities, rule strings being made into the same
    rules. -/
structure SameRegistry (f : RuleId → RuleId) (s : Session) (r : Nat) (s' : Session) (r' : Nat) :
    Prop where
  registry : s'.registries.item r' = (s.registries.item r).renamed f
  read (spec : String) : (Registry.tokens spec (s'.workspace r')).1 =
    (Registry.tokens spec (s.workspace r)).1.map (List.map (Token.renamed f))
  parsed (spec : String) : (s'.workspace r').parsed spec =
    ((s.workspace r).parsed spec).map (List.map (MadeRule.renamed f))

variable {f : RuleId → RuleId}

theorem SameRegistry.ofRegistry (closed : (s.workspace r).Closed)
    (closed' : (s'.workspace r').Closed)
    (same : s'.registries.item r' = (s.registries.item r).renamed f) : SameRegistry f s r s' r' where
  registry := same
  read spec := by
    have outcome (w : Workspace) : (Registry.tokens spec w).1 = w.registry.reading spec :=
      Registry.tokens_outcome spec w
    rw [outcome, outcome]
    exact (congrArg (Registry.reading · spec) same).trans (Registry.reading_renamed _ spec)
  parsed spec := by
    rw [Workspace.parsed_eq closed', Workspace.parsed_eq closed]
    refine Eq.trans ?_ (Registry.reading_made_renamed _ spec)
    exact congrArg (fun registry => (Registry.reading registry spec).bind _) same

theorem create_next (withStandard : Bool) (entries : List (Option String × Written)) (s : Session) :
    s.registries.next < ((create withStandard entries).perform s).registries.next := by
  rw [create_perform]
  exact Nat.lt_succ_self _

theorem create_item (withStandard : Bool) (entries : List (Option String × Written)) (s : Session) :
    ((create withStandard entries).perform s).registries.item s.registries.next =
      (Registry.extend entries
        { registry := if withStandard then .standard else {}
          rules := s.rules, seen := s.seen }).2.registry := by
  rw [create_perform]
  refine (if_pos rfl).trans ?_
  show (Registry.extend entries (workspace _ _)).2.registry = _
  rw [workspace, withRegistry_new]
  rfl

/-- New registries are the same if the same is registered with them at once. -/
theorem create_same (closed : s.Closed) (closed' : s'.Closed) (withStandard : Bool)
    {entries : List (Option String × Written)}
    (used : (Registry.Operation.extend entries).InUse s.rules)
    (used' : (Registry.Operation.extend (entries.map (Registry.renamedEntry f))).InUse s'.rules)
    (alike : (Registry.Operation.extend entries).AlikeIn f s.rules s'.rules) :
    SameRegistry f ((create withStandard entries).perform s) s.registries.next
      ((create withStandard (entries.map (Registry.renamedEntry f))).perform s')
      s'.registries.next := by
  let start : Registry := if withStandard then .standard else {}
  have unshared : start.renamed f = start := by cases withStandard <;> rfl
  have proper : (create withStandard entries).Proper s := used
  have proper' : (create withStandard (entries.map (Registry.renamedEntry f))).Proper s' := used'
  refine .ofRegistry (perform_closed closed proper _ (create_next _ _ s))
    (perform_closed closed' proper' _ (create_next _ _ s')) ?_
  rw [create_perform, create_perform, operate_withRegistry used', operate_withRegistry used]
  have step := Registry.Operation.effect_renamed start alike
  rwa [unshared] at step

/-- Copies are the same if their sources have the same entries, whatever these have read. -/
theorem copy_same (closed : s.Closed) (closed' : s'.Closed) {source source' : Nat}
    (existing : source < s.registries.next) (existing' : source' < s'.registries.next)
    (same : (s'.registries.item source').entries =
      (s.registries.item source).entries.mapped (Factory.renamed f)) :
    SameRegistry f ((copy source).perform s) s.registries.next
      ((copy source').perform s') s'.registries.next := by
  have proper : (copy source).Proper s := existing
  have proper' : (copy source').Proper s' := existing'
  refine .ofRegistry (perform_closed closed proper _ (Nat.lt_succ_self _))
    (perform_closed closed' proper' _ (Nat.lt_succ_self _)) ?_
  rw [copy_perform, copy_perform, withRegistry_new, withRegistry_new]
  simp only [Registry.copy, Registry.renamed, same]
  rfl

/-- What is done with another registry changes neither a registry nor what it makes of rule
    strings. -/
theorem perform_other (closed : s.Closed) (existing : r < s.registries.next) {use : RegistryUse}
    (proper : use.Proper s) (other : ∀ operation, use ≠ operate r operation) :
    (use.perform s).registries.item r = s.registries.item r ∧
      ∀ spec, ((use.perform s).workspace r).parsed spec = (s.workspace r).parsed spec := by
  have unowned : use.own r = [] := by
    cases use with
    | create | copy => rfl
    | operate registry operation =>
        refine if_neg fun same => ?_
        exact other operation (same ▸ rfl)
  have same : (use.perform s).registries.item r = s.registries.item r := by
    rw [perform_item proper existing, unowned]
    rfl
  refine ⟨same, fun spec => ?_⟩
  have later := perform_closed closed proper r (Nat.lt_of_lt_of_le existing (use.perform_next s))
  rw [Workspace.parsed_eq later, Workspace.parsed_eq (closed r existing)]
  exact congrArg (fun registry => (Registry.reading registry spec).bind _) same

/-- Registries are isolated from each other. Two registries, of one session or of two, that start the
    same and with which the same is done, rules being told by what they are and not by their
    identities, are the same behind any histories: they have the same identifiers, entries, kept rule
    strings and counters, and make any rule string into the same rules. What is done with any other
    registry leaves a registry as it is. A registry that is added later begins with the 19 built-in
    classes or empty, whatever has been registered elsewhere, and what it becomes depends on the
    entries that are registered with it at once; a copy depends on the entries of its source at that
    moment, and not on what that has read. -/
theorem registries_isolated (closed : s.Closed) (closed' : s'.Closed)
    {history history' : List RegistryUse} (proper : AllProper s history)
    (proper' : AllProper s' history') (existing : r < s.registries.next)
    (existing' : r' < s'.registries.next)
    (sameStart : s'.registries.item r' = (s.registries.item r).renamed f)
    (sameUses : List.Forall₂ (Moment.AlikeIn f) (moments r s history) (moments r' s' history')) :
    let now := after s history
    let now' := after s' history'
    SameRegistry f now r now' r' ∧
    (∀ use : RegistryUse, use.Proper now → (∀ operation, use ≠ operate r operation) →
      (use.perform now).registries.item r = now.registries.item r ∧
      ∀ spec, ((use.perform now).workspace r).parsed spec = (now.workspace r).parsed spec) ∧
    (∀ withStandard entries,
      let entries' := entries.map (Registry.renamedEntry f)
      (Registry.Operation.extend entries).InUse now.rules →
      (Registry.Operation.extend entries').InUse now'.rules →
      (Registry.Operation.extend entries).AlikeIn f now.rules now'.rules →
      SameRegistry f ((create withStandard entries).perform now) now.registries.next
        ((create withStandard entries').perform now') now'.registries.next) ∧
    (∀ source < now.registries.next, ∀ source' < now'.registries.next,
      (now'.registries.item source').entries =
        (now.registries.item source).entries.mapped (Factory.renamed f) →
      SameRegistry f ((copy source).perform now) now.registries.next
        ((copy source').perform now') now'.registries.next) ∧
    (∀ withStandard entries,
      ((create withStandard entries).perform now).registries.item now.registries.next =
        (Registry.extend entries
          { registry := if withStandard then .standard else {}
            rules := now.rules, seen := now.seen }).2.registry) ∧
    ({} : Session).registries.item mainId = .standard ∧
    Registry.standard.entries.names.Nodup ∧ Registry.standard.entries.names.length = 19 := by
  intro now now'
  have nowClosed : now.Closed := after_closed closed proper
  have nowClosed' : now'.Closed := after_closed closed' proper'
  have here : r < now.registries.next := Nat.lt_of_lt_of_le existing (after_next history s)
  have here' : r' < now'.registries.next := Nat.lt_of_lt_of_le existing' (after_next history' s')
  refine ⟨?_, ?_, ?_, ?_, ?_, rfl, by decide, by decide⟩
  · refine .ofRegistry (nowClosed r here) (nowClosed' r' here') ?_
    rw [after_item proper existing, after_item proper' existing', sameStart]
    exact Registry.replayed_renamed sameUses _
  · exact fun use used other => perform_other nowClosed here used other
  · exact fun withStandard entries used used' alike =>
      create_same nowClosed nowClosed' withStandard used used' alike
  · exact fun source below source' below' same => copy_same nowClosed nowClosed' below below' same
  · exact fun withStandard entries => create_item withStandard entries now

end Session

namespace Sample

open RegistryUse

/-- A rule that brings an identifier of its own. -/
def present : Rule := { Rule.ofKind .required with givenName := some "present" }

/-- A session with one rule, which its only registry shares and reads. -/
def alone : Session := { rules := (Shelf.empty.add present).2 }

def aloneUses : List RegistryUse :=
  [operate 0 (.register (.rule 0) none), operate 0 (.read "present")]

/-- A session where the same rule comes second, and where other registries are used too. -/
def crowded : Session := { rules := ((Shelf.empty.add (.ofKind .email)).2.add present).2 }

def crowdedUses : List RegistryUse :=
  [copy 0, operate 0 (.register (.rule 1) none),
    operate 1 (.register (.ofClass (.rules (.builtIn .email))) (some "present")),
    create true [(none, .rule 0)], operate 0 (.read "present")]

theorem alone_closed : alone.Closed := by
  intro registry below
  obtain rfl : registry = 0 := Nat.lt_one_iff.mp below
  exact .ofStandard rfl

theorem crowded_closed : crowded.Closed := by
  intro registry below
  obtain rfl : registry = 0 := Nat.lt_one_iff.mp below
  exact .ofStandard rfl

theorem registering_inUse {rules : RuleStore} {id : RuleId} (existing : id < rules.next) :
    ∀ entry ∈ [((none : Option String), Written.rule id)], ∀ other, entry.2.Gives other →
      other < rules.next := by
  intro entry member other gives
  obtain rfl := List.mem_singleton.mp member
  obtain rfl : id = other := gives
  exact existing

theorem reading_inUse (rules : RuleStore) (spec : String) :
    Registry.Operation.InUse rules (.read spec) := fun _ none => (List.not_mem_nil none).elim

theorem aloneUses_proper : AllProper alone aloneUses :=
  ⟨⟨by decide +kernel, registering_inUse (by decide +kernel)⟩,
    ⟨by decide +kernel, reading_inUse _ _⟩, trivial⟩

theorem crowdedUses_proper : AllProper crowded crowdedUses := by
  refine ⟨(by decide : 0 < 1), ⟨by decide +kernel, registering_inUse (by decide +kernel)⟩,
    ⟨by decide +kernel, ?_⟩, registering_inUse (by decide +kernel),
    ⟨by decide +kernel, reading_inUse _ _⟩, trivial⟩
  simp [Registry.Operation.InUse, Registry.Operation.entries, Written.Gives]

theorem uses_alike :
    List.Forall₂ (Moment.AlikeIn (· + 1)) (moments 0 alone aloneUses)
      (moments 0 crowded crowdedUses) := by
  refine .cons ⟨rfl, ?_⟩ (.cons ⟨rfl, fun _ none => (List.not_mem_nil none).elim⟩ .nil)
  intro entry member id gives
  obtain rfl := List.mem_singleton.mp member
  obtain rfl : 0 = id := gives
  rfl

end Sample

open RegistryUse in
theorem Session.registries_isolated_sample :
    let now := after Sample.alone Sample.aloneUses
    let now' := after Sample.crowded Sample.crowdedUses
    SameRegistry (· + 1) now 0 now' 0 ∧
      ((create false []).perform now).registries.item 0 = now.registries.item 0 ∧
      SameRegistry (· + 1) ((copy 0).perform now) 1 ((copy 0).perform now') 3 ∧
      (now'.registries.item 0).entries.has "present" = true ∧
      (now'.registries.item 0).misses = 1 := by
  intro now now'
  have existing : 0 < Sample.alone.registries.next := by decide
  have existing' : 0 < Sample.crowded.registries.next := by decide
  obtain ⟨same, unchanged, -, copies, -⟩ :=
    registries_isolated Sample.alone_closed Sample.crowded_closed Sample.aloneUses_proper
      Sample.crowdedUses_proper existing existing' rfl Sample.uses_alike
  have nothing : (create false []).Proper now := fun _ none => (List.not_mem_nil none).elim
  have left := (unchanged (create false []) nothing (by simp)).1
  have copied := copies 0 (by decide +kernel) 0 (by decide +kernel)
    (congrArg (·.entries) same.registry)
  have next : now.registries.next = 1 := by decide +kernel
  have next' : now'.registries.next = 3 := by decide +kernel
  rw [next, next'] at copied
  exact ⟨same, left, copied, by decide +kernel, by decide +kernel⟩

end FieldRules
