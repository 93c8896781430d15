import FieldRules.Proofs.Registry.History
import FieldRules.Proofs.Registry.Products
import Mathlib.Data.List.Forall2

/-! # What comes of a rule string

A rule string is read as a whole before the first of its rules is made. So a piece that cannot be
read comes before every token whose rule cannot be made, wherever the two stand, and among the
tokens of a string that can be read the first one decides whose rule cannot be made.
-/

namespace FieldRules

/-- What is only changed once it has succeeded faults as before. -/
theorem Outcome.andThen_fault {α β : Type} {outcome : Outcome α} {f : α → β} {fault : Fault} :
    (do let a ← outcome; pure (f a)) = Except.error fault ↔ outcome = .error fault := by
  cases outcome <;> simp [bind, Except.bind, pure, Except.pure]

/-- Steps that are done one after another fault with the first that faults. -/
theorem Outcome.mapM_fault {α β : Type} {step : α → Outcome β} {as : List α} {fault : Fault} :
    as.mapM step = .error fault ↔
      ∃ before a behind, as = before ++ a :: behind ∧
        (∀ earlier ∈ before, ∃ b, step earlier = .ok b) ∧ step a = .error fault := by
  induction as with
  | nil =>
      constructor
      · intro same
        cases same
      · rintro ⟨before, a, behind, split, -, -⟩
        simp at split
  | cons first rest ih =>
      rw [List.mapM_cons]
      cases done : step first with
      | error cause =>
          constructor
          · intro same
            cases same
            exact ⟨[], first, rest, rfl, by simp, done⟩
          · rintro ⟨_ | ⟨earlier, before⟩, a, behind, split, passed, failed⟩
            · cases split
              obtain rfl := Except.error.inj (done.symm.trans failed)
              rfl
            · cases split
              obtain ⟨b, given⟩ := passed _ List.mem_cons_self
              simp [done] at given
      | ok b =>
          refine Outcome.andThen_fault.trans (ih.trans ?_)
          constructor
          · rintro ⟨before, a, behind, rfl, passed, failed⟩
            exact ⟨first :: before, a, behind, rfl,
              List.forall_mem_cons.mpr ⟨⟨b, done⟩, passed⟩, failed⟩
          · rintro ⟨_ | ⟨earlier, before⟩, a, behind, split, passed, failed⟩
            · cases split
              simp [done] at failed
            · cases split
              exact ⟨before, a, behind, rfl, (List.forall_mem_cons.mp passed).2, failed⟩

/-- Steps that all succeed give one result each, in order. -/
theorem Outcome.mapM_eq_ok {α β : Type} {step : α → Outcome β} {as : List α} {bs : List β} :
    as.mapM step = .ok bs ↔ List.Forall₂ (fun a b => step a = .ok b) as bs := by
  induction as generalizing bs with
  | nil =>
      rw [List.forall₂_nil_left_iff]
      exact ⟨fun same => (Except.ok.inj same).symm, fun same => same ▸ rfl⟩
  | cons first rest ih =>
      rw [List.mapM_cons]
      constructor
      · intro given
        obtain ⟨b, done, given⟩ := Outcome.bind_ok given
        obtain ⟨others, later, given⟩ := Outcome.bind_ok given
        obtain rfl := Except.ok.inj given
        exact .cons done (ih.mp later)
      · intro given
        cases given with
        | cons done later =>
            rw [done, ih.mpr later]
            rfl

namespace MadeRule

/-- Gives made rules their identities in order. -/
def placeAll : List MadeRule → RuleStore → List RuleId × RuleStore
  | [], rules => ([], rules)
  | made :: rest, rules =>
    let (id, rules) := made.place rules
    let (ids, rules) := placeAll rest rules
    (id :: ids, rules)

/-- What has become of a made rule, between two stores: the rule that it is, or a new one. -/
inductive Becomes (before after : RuleStore) : MadeRule → RuleId → Prop where
  | shared (id : RuleId) : Becomes before after (.shared id) id
  | fresh {rule : Rule} {id : RuleId} (new : before.next ≤ id) (here : id < after.next)
      (same : after.item id = rule) : Becomes before after (.fresh rule) id

variable {before rules after : RuleStore}

theorem place_becomes {made : MadeRule} (grown : before.GrownIn rules)
    (later : (made.place rules).2.GrownIn after) :
    made.Becomes before after (made.place rules).1 := by
  cases made with
  | shared id => exact .shared id
  | fresh rule =>
      have here : rules.next < (rules.add rule).2.next := Nat.lt_succ_self _
      refine .fresh grown.next (Nat.lt_of_lt_of_le here later.next) ?_
      exact (later.item _ here).trans (by simp [place])

theorem placeAll_grown (made : List MadeRule) (rules : RuleStore) :
    rules.GrownIn (placeAll made rules).2 := by
  induction made generalizing rules with
  | nil => exact .refl rules
  | cons first rest ih => exact (first.place_grown rules).trans (ih _)

end MadeRule

/-- The rule of a token was made between two stores. -/
def Token.Gives (before after : RuleStore) (token : Token) (id : RuleId) : Prop :=
  ∃ made, token.made = .ok made ∧ made.Becomes before after id

theorem Token.placeAll_gives {before rules after : RuleStore} {tokens : List Token}
    {made : List MadeRule}
    (given : List.Forall₂ (fun token made => token.made = .ok made) tokens made)
    (grown : before.GrownIn rules) (later : (MadeRule.placeAll made rules).2.GrownIn after) :
    List.Forall₂ (Token.Gives before after) tokens (MadeRule.placeAll made rules).1 := by
  induction given generalizing rules with
  | nil => exact .nil
  | @cons token first tokens rest tokenMade _ ih =>
      have others := (MadeRule.placeAll_grown rest (first.place rules).2).trans later
      refine .cons ⟨first, tokenMade, MadeRule.place_becomes grown others⟩ ?_
      exact ih (grown.trans (first.place_grown rules)) later

/-- Rules have been made and rule strings read, while nothing was registered or forgotten. -/
structure Workspace.GrownIn (w w' : Workspace) : Prop where
  entries : w'.registry.entries = w.registry.entries
  reading (spec : String) : w'.registry.reading spec = w.registry.reading spec
  rules : w.rules.GrownIn w'.rules

namespace Workspace.GrownIn

variable {w w' w'' : Workspace}

theorem refl (w : Workspace) : w.GrownIn w := ⟨rfl, fun _ => rfl, .refl w.rules⟩

theorem trans (first : w.GrownIn w') (second : w'.GrownIn w'') : w.GrownIn w'' where
  entries := second.entries.trans first.entries
  reading spec := (second.reading spec).trans (first.reading spec)
  rules := first.rules.trans second.rules

theorem kept (grown : w.GrownIn w') : w.KeptIn w' where
  entries := grown.entries
  next := grown.rules.next
  cleared id below := by rw [grown.rules.item id below]

end Workspace.GrownIn

namespace Registry

variable {spec : String} {w w' : Workspace} {fault : Fault}

theorem tokens_grown (spec : String) (w : Workspace) : w.GrownIn (tokens spec w).2 := by
  refine ⟨tokens_entries spec w, fun other => ?_, tokens_rules spec w ▸ .refl w.rules⟩
  have read := tokenize_entries (tokens_entries spec w) other
  simp only [reading, tokens_cache, read]
  cases w.registry.cache.get? other with
  | some kept => rfl
  | none =>
      by_cases here : spec = other
      · cases w.registry.tokenize other <;> simp [here, Except.toOption]
      · simp [here]

/-- Tokens come to the rules that they stand for, placed in order, or to the fault of the first
    whose rule cannot be made. -/
theorem buildTokens_eq (tokens : List Token) (w : Workspace) :
    ∃ rules seen, buildTokens tokens w =
      match tokens.mapM Token.made with
      | .ok made => (.ok (MadeRule.placeAll made w.rules).1,
          { w with rules := (MadeRule.placeAll made w.rules).2, seen })
      | .error fault => (.error fault, { w with rules, seen }) := by
  induction tokens generalizing w with
  | nil => exact ⟨w.rules, w.seen, rfl⟩
  | cons token rest ih =>
      obtain ⟨seen, built⟩ :=
        token.factory.construct_eq token.identifier (token.arguments.map .str) w
      simp only [buildTokens, Token.build, Task.bind_eq, built, List.mapM_cons, Token.made]
      cases token.factory.made token.identifier (token.arguments.map .str) with
      | error fault => exact ⟨w.rules, seen, rfl⟩
      | ok made =>
          obtain ⟨rules', seen', later⟩ := ih { w with rules := (made.place w.rules).2, seen }
          refine ⟨rules', seen', ?_⟩
          simp only [later, bind, Except.bind]
          cases rest.mapM Token.made <;> rfl

/-- A rule string faults over its reading, or over the first token whose rule cannot be made. -/
theorem parse_fault_iff :
    (parse spec w).1 = .error fault ↔
      w.registry.reading spec = .error fault ∨
        ∃ read, w.registry.reading spec = .ok read ∧ read.mapM Token.made = .error fault := by
  have outcome : (tokens spec w).1 = w.registry.reading spec := tokens_outcome spec w
  rw [parse, Task.bind_eq, ← outcome]
  rcases tokens spec w with ⟨cause | read, between⟩
  · simp
  · obtain ⟨rules, seen, built⟩ := buildTokens_eq read between
    simp only [built, Except.ok.injEq, exists_eq_left', reduceCtorEq, false_or]
    cases read.mapM Token.made <;> simp

/-- The rules of a rule string are what its tokens stand for, one each, in order. -/
theorem parse_gives {ids : List RuleId} (ran : parse spec w = (.ok ids, w'))
    {before after : RuleStore} (grown : before.GrownIn w.rules) (later : w'.rules.GrownIn after) :
    ∃ read, w.registry.reading spec = .ok read ∧
      List.Forall₂ (Token.Gives before after) read ids := by
  have outcome : (tokens spec w).1 = w.registry.reading spec := tokens_outcome spec w
  obtain ⟨read, between, asked, building⟩ := Task.bind_ran ran
  have same := tokens_rules spec w
  rw [asked] at outcome same
  obtain ⟨rules, seen, built⟩ := buildTokens_eq read between
  rw [built] at building
  refine ⟨read, outcome.symm, ?_⟩
  cases given : read.mapM Token.made with
  | error fault =>
      rw [given] at building
      cases building
  | ok made =>
      rw [given] at building
      cases building
      rw [← same] at grown
      exact Token.placeAll_gives (Outcome.mapM_eq_ok.mp given) grown later

theorem parse_grown (spec : String) (w : Workspace) : w.GrownIn (parse spec w).2 := by
  have asked := tokens_grown spec w
  have registry := parse_registry spec w
  refine ⟨?_, fun other => ?_, ?_⟩
  · rw [registry]
    exact asked.entries
  · rw [registry]
    exact asked.reading other
  · rw [parse, Task.bind_eq]
    rcases ran : tokens spec w with ⟨fault | read, between⟩
    · rw [ran] at asked
      exact asked.rules
    · rw [ran] at asked
      exact asked.rules.trans (buildTokens_grown read between)

end Registry

end FieldRules
