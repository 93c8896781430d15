import FieldRules.Proofs.Registry.Building
import FieldRules.Proofs.Session.Registries

/-! # Rules and registries over histories

Registries are made, copied, changed and asked, while the rules that exist are made, changed and
checked. `RuleUse` is all of this, and `after_wellFormed` the invariant: what a registry names
exists, and what it holds can be asked for. One use either concerns registries, or leaves all of
them as they are. -/

namespace FieldRules

/-- What can be done with the rules and the registries of a session. -/
inductive RuleUse where
  | ofRegistry (use : RegistryUse)
  /-- Makes a rule that no registry knows. -/
  | make (rule : Rule)
  | build (registry : Nat) (identifier : String) (arguments : List Value)
  /-- Changes a rule: its marks, its template, its name or what it has recorded. -/
  | change (id : RuleId) (f : Rule → Rule)
  | check (id : RuleId) (value : Value)

variable {s s' : Session}

namespace Session

/-- Nothing that is registered anywhere is different, and there may be more rules. -/
structure SameRegistries (s s' : Session) : Prop where
  number : s'.registries.next = s.registries.next
  item (r : Nat) : s'.registries.item r = s.registries.item r
  next : s.rules.next ≤ s'.rules.next

/-- What registries name exists, and what they hold can be asked for. -/
structure WellFormed (s : Session) : Prop where
  closed : s.Closed
  formed : ∀ r < s.registries.next, (s.registries.item r).WellFormed s.rules

theorem SameRegistries.wellFormed (same : SameRegistries s s') (formed : s.WellFormed) :
    s'.WellFormed where
  closed r below := by
    rw [same.number] at below
    exact (formed.closed r below).mono (same.item r) same.next
  formed r below := by
    rw [same.number] at below
    rw [same.item]
    exact (formed.formed r below).mono same.next

/-- A session has one registry at first, of the built-in classes. -/
theorem start_wellFormed (fresh : s.registries = ({} : Session).registries) : s.WellFormed := by
  have only (r : Nat) (below : r < s.registries.next) : s.registries.item r = .standard := by
    rw [fresh] at below ⊢
    obtain rfl : r = 0 := Nat.lt_one_iff.mp below
    rfl
  constructor
  · intro r below
    exact .ofStandard (only r below)
  · intro r below
    rw [only r below]
    exact Registry.standard_wellFormed s.rules

end Session

namespace RuleUse

open Session

/-- What a use leaves behind, whether it succeeds or faults. -/
def perform (s : Session) : RuleUse → Session
  | ofRegistry use => use.perform s
  | make rule => (addRule rule s).2
  | build registry identifier arguments =>
    (inRegistry registry (Registry.build identifier arguments) s).2
  | change id f => (changeRule id f s).2
  | check id value => (checkRule id value s).2

/-- Whether the registries and the rules exist that a use names. -/
def Proper (s : Session) : RuleUse → Prop
  | ofRegistry use => use.Proper s
  | make _ => True
  | build registry _ _ => registry < s.registries.next
  | change id _ | check id _ => id < s.rules.next

/-- The session behind a history. -/
def after (s : Session) (history : List RuleUse) : Session := history.foldl perform s

/-- Whether all that a history names exists when it is used. -/
def AllProper (s : Session) : List RuleUse → Prop
  | [] => True
  | use :: rest => use.Proper s ∧ AllProper (use.perform s) rest

/-- What each use preserves is true behind a history. -/
theorem after_invariant {P : Session → Prop} {history : List RuleUse}
    (step : ∀ use ∈ history, ∀ s, use.Proper s → P s → P (use.perform s))
    (proper : AllProper s history) (start : P s) : P (after s history) := by
  induction history generalizing s with
  | nil => exact start
  | cons use rest ih =>
      have first := step use List.mem_cons_self s proper.1 start
      exact ih (fun other later => step other (List.mem_cons_of_mem _ later)) proper.2 first

theorem after_append (s : Session) (first second : List RuleUse) :
    after s (first ++ second) = after (after s first) second := List.foldl_append

theorem allProper_append {first second : List RuleUse} (proper : AllProper s (first ++ second)) :
    AllProper s first ∧ AllProper (after s first) second := by
  induction first generalizing s with
  | nil => exact ⟨trivial, proper⟩
  | cons use rest ih =>
      obtain ⟨here, later⟩ := ih proper.2
      exact ⟨⟨proper.1, here⟩, later⟩

/-- A use that is none of registries leaves all of them as they are. -/
theorem perform_same (s : Session) {use : RuleUse} (other : ∀ own, use ≠ ofRegistry own) :
    SameRegistries s (use.perform s) := by
  cases use with
  | ofRegistry own => exact absurd rfl (other own)
  | make rule => exact ⟨rfl, fun _ => rfl, Nat.le_succ _⟩
  | build r identifier arguments =>
      have left := (Registry.build_comes identifier arguments (s.workspace r)).left
      refine ⟨rfl, ?_, left.2.next⟩
      intro r'
      by_cases here : r' = r
      · subst here
        exact (if_pos rfl).trans left.1
      · exact if_neg here
  | change id f => exact ⟨rfl, fun _ => rfl, Nat.le_refl _⟩
  | check id value => exact ⟨rfl, fun _ => rfl, Nat.le_refl _⟩

end RuleUse

namespace RegistryUse

open Session

theorem operate_grown {operation : Registry.Operation} (used : operation.InUse s.rules) (r : Nat) :
    s.rules.GrownIn ((operate r operation).perform s).rules :=
  (Registry.Operation.perform_effect (w := s.workspace r) used).2

theorem perform_grown {use : RegistryUse} (proper : use.Proper s) :
    s.rules.GrownIn (use.perform s).rules := by
  cases use with
  | create withStandard entries =>
      rw [create_perform]
      exact operate_grown (s := s.withRegistry _) proper s.registries.next
  | copy source => exact .refl s.rules
  | operate r operation => exact operate_grown proper.2 r

/-- What a registry can be behind a use. -/
inductive Leaves (s : Session) : RegistryUse → Registry → Prop where
  | kept {use : RegistryUse} {r : Nat} (below : r < s.registries.next) :
      Leaves s use (s.registries.item r)
  | created (withStandard : Bool) (entries : List (Option String × Written)) :
      Leaves s (.create withStandard entries)
        ((Registry.Operation.extend entries).effect s.rules
          (if withStandard then .standard else {}))
  | copied {source : Nat} (below : source < s.registries.next) :
      Leaves s (.copy source) (s.registries.item source).copy
  | operated {r : Nat} (below : r < s.registries.next) (operation : Registry.Operation) :
      Leaves s (.operate r operation) (operation.effect s.rules (s.registries.item r))

theorem perform_leaves {use : RegistryUse} (proper : use.Proper s) {r : Nat}
    (below : r < (use.perform s).registries.next) :
    Leaves s use ((use.perform s).registries.item r) := by
  cases use with
  | create withStandard entries =>
      rw [create_perform] at below ⊢
      by_cases new : r = s.registries.next
      · subst new
        rw [operate_withRegistry proper]
        exact .created withStandard entries
      · have earlier : r < s.registries.next := Nat.lt_of_le_of_ne (Nat.le_of_lt_succ below) new
        rw [operate_other new, withRegistry_item _ earlier]
        exact .kept earlier
  | copy source =>
      rw [copy_perform] at below ⊢
      by_cases new : r = s.registries.next
      · subst new
        rw [withRegistry_new]
        exact .copied proper
      · have earlier : r < s.registries.next := Nat.lt_of_le_of_ne (Nat.le_of_lt_succ below) new
        rw [withRegistry_item _ earlier]
        exact .kept earlier
  | operate r' operation =>
      by_cases here : r = r'
      · subst here
        rw [operate_item proper.2]
        exact .operated proper.1 operation
      · rw [operate_other here]
        exact .kept below

theorem Leaves.wellFormed {use : RegistryUse} {registry : Registry} (proper : use.Proper s)
    (formed : s.WellFormed) (leaves : Leaves s use registry) : registry.WellFormed s.rules := by
  cases leaves with
  | kept below => exact formed.formed _ below
  | created withStandard entries =>
      apply Registry.Operation.effect_wellFormed _ proper
      cases withStandard with
      | true => exact Registry.standard_wellFormed s.rules
      | false => exact Registry.empty_wellFormed s.rules
  | copied below =>
      have source := formed.formed _ below
      exact ⟨source.distinct, source.named, source.used⟩
  | operated below operation =>
      exact Registry.Operation.effect_wellFormed (formed.formed _ below) proper.2

end RegistryUse

namespace RuleUse

open Session

theorem perform_wellFormed (formed : s.WellFormed) {use : RuleUse} (proper : use.Proper s) :
    (use.perform s).WellFormed := by
  cases use with
  | ofRegistry own =>
      constructor
      · exact own.perform_closed formed.closed proper
      · intro r below
        have leaves := RegistryUse.perform_leaves proper below
        exact (leaves.wellFormed proper formed).mono (RegistryUse.perform_grown proper).next
  | make | build | change | check => exact (perform_same s (by simp)).wellFormed formed

theorem after_wellFormed (formed : s.WellFormed) {history : List RuleUse}
    (proper : AllProper s history) : (after s history).WellFormed :=
  after_invariant (fun _ _ _ isProper before => perform_wellFormed before isProper) proper formed

end RuleUse

namespace Session

open RuleUse

/-- Whatever has been done with registries and rules, also where it has faulted, every registry is
    well-formed: its identifiers are distinct and not empty, and its entries are rules that exist,
    classes of rules and functions. Asking it for a rule comes to one of the cases of `Building`: the
    identifier is unknown; the rule that all share is given as it is, or refuses arguments; or a
    class or a function is called once with the arguments, and gives the rule, gives something else,
    rejects the arguments or faults in a way of its own. This is so just if no rejection stays
    without a report; if one does, because the arguments have no printed form, what comes out is the
    fault of printing them. In either case the rule that is given exists, and that an entry is no
    maker is never what is wrong. -/
theorem registries_well_formed (fresh : s.registries = ({} : Session).registries)
    {history : List RuleUse} (proper : AllProper s history) {r : Nat}
    (existing : r < (after s history).registries.next) :
    let w := (after s history).workspace r
    w.registry.WellFormed w.rules ∧
    ∀ identifier arguments,
      let ran := Registry.build identifier arguments w
      (Registry.Building w identifier arguments ran.1 ran.2 ↔
        ¬∃ factory, Registry.Unreported w identifier arguments factory) ∧
      (∀ factory, Registry.Unreported w identifier arguments factory →
        ran = (.error .unprintable, { w with seen := w.seen ++ factory.notes arguments })) ∧
      ran.2.registry = w.registry ∧
      (∀ id, ran.1 = .ok id → id < ran.2.rules.next) ∧
      ∀ defect, ran.1 = .error (.invalidRule defect) →
        defect = .instanceArguments identifier ∨
        (∃ typeName, defect = .notARule identifier typeName) ∨
        ∃ factory, w.registry.entries.get? identifier = some factory ∧
          factory.product arguments = .error (.invalidRule defect) := by
  intro w
  have formed : w.registry.WellFormed w.rules :=
    (after_wellFormed (start_wellFormed fresh) proper).formed r existing
  refine ⟨formed, ?_⟩
  intro identifier arguments ran
  have comes : Registry.Comes w identifier arguments ran :=
    Registry.build_comes identifier arguments w
  exact ⟨Registry.building_iff comes, fun _ lost => comes.unreported lost, comes.left.1,
    fun _ given => comes.exists formed given, fun _ faulted => comes.invalid faulted⟩

end Session

namespace Sample

open RegistryUse

/-- A function that makes rules and takes no arguments. -/
def maker : Callable where
  id := 0
  name := "maker"
  label := some "maker"
  run arguments :=
    if arguments.isEmpty then .ok (.fresh present) else .error (.call (.none "maker"))

/-- A rule and a function are registered, something else is refused, and then all is copied. -/
def askedUses : List RuleUse :=
  [.make present, .ofRegistry (operate 0 (.register (.rule 0) none)),
    .ofRegistry (operate 0 (.register (.callable maker) (some "made"))),
    .ofRegistry (operate 0 (.register (.value (.int 3)) (some "three"))), .ofRegistry (copy 0)]

theorem maker_gives (id : RuleId) : ¬ maker.Gives id := by
  intro gives
  obtain ⟨arguments, given⟩ := gives
  simp only [maker] at given
  split at given <;> cases given

theorem askedUses_proper : RuleUse.AllProper {} askedUses := by
  refine ⟨trivial, ⟨by decide +kernel, registering_inUse (by decide +kernel)⟩,
    ⟨by decide +kernel, ?_⟩, ⟨by decide +kernel, ?_⟩, (by decide +kernel : 0 < 1), trivial⟩
  · simp [Registry.Operation.InUse, Registry.Operation.entries, Written.Gives, maker_gives]
  · simp [Registry.Operation.InUse, Registry.Operation.entries, Written.Gives]

end Sample

open RuleUse in
theorem Session.registries_well_formed_sample :
    let w := (after {} Sample.askedUses).workspace 1
    w.registry.entries.names.Nodup ∧ w.registry.entries.has "three" = false ∧
      Registry.Building w "present" [] (.ok 0) (Registry.build "present" [] w).2 ∧
      Registry.Building w "made" [] (.ok 1) (Registry.build "made" [] w).2 ∧
      Registry.Building w "made" [.str "x"]
        (.error (.buildFailed "made" [.str "x"] (.call (.none "maker"))))
        (Registry.build "made" [.str "x"] w).2 := by
  intro w
  obtain ⟨formed, asked⟩ :=
    registries_well_formed rfl Sample.askedUses_proper (r := 1) (by decide +kernel)
  -- The arguments of all three can be printed.
  have reported (identifier : String) {arguments : List Value}
      (printable : (Value.list arguments).printed?.isSome = true) :
      ¬∃ factory, Registry.Unreported w identifier arguments factory := by
    rintro ⟨factory, unreported⟩
    cases unreported.unprintable.symm.trans printable
  refine ⟨formed.distinct, by decide +kernel, ?_, ?_, ?_⟩
  · exact (asked "present" []).1.mpr (reported "present" (by decide +kernel))
  · exact (asked "made" []).1.mpr (reported "made" (by decide +kernel))
  · exact (asked "made" [.str "x"]).1.mpr (reported "made" (by decide +kernel))

/-- A class rejects a whole number of 4301 digits, and the rejection comes out as another fault. -/
theorem Session.rejection_unreported :
    let w := ({} : Session).workspace Session.mainId
    let ran := Registry.build "required" [.int (Number.tenTo 4300)] w
    ran.1 = .error .unprintable ∧
      ¬Registry.Building w "required" [.int (Number.tenTo 4300)] ran.1 ran.2 := by
  intro w ran
  have comes : Registry.Comes w "required" [.int (Number.tenTo 4300)] ran :=
    Registry.build_comes _ _ w
  have unreported : Registry.Unreported w "required" [.int (Number.tenTo 4300)]
      (.ofClass (.builtIn .required)) :=
    ⟨rfl, trivial, ⟨_, rfl, rfl⟩, by decide +kernel⟩
  have same := comes.unreported unreported
  exact ⟨congrArg Prod.fst same, fun building =>
    (Registry.building_iff comes).mp building ⟨_, unreported⟩⟩

end FieldRules
