import FieldRules.Proofs.Registry.Arguments

/-! # Bounds in rule strings

A least or a greatest measure that is written in a rule string is read as a floating-point number,
and one that is given to the class as a whole number is kept. The two rules give the same verdicts
just if the number is one of floating point; otherwise some whole number tells them apart.
-/

namespace FieldRules

open Text

/-- The two sides on which a measure can be bounded. -/
inductive Limit where
  | least
  | greatest
  deriving DecidableEq

namespace Limit

/-- The class of rules that bound on a side. -/
def maker : Limit → BuiltIn
  | least => .min
  | greatest => .max

def kind : Limit → Number → RuleKind
  | least => .min
  | greatest => .max

/-- Whether a measure is on the right side of a bound. -/
def admits : Limit → Number → Number → Bool
  | least, bound, measure => bound.le measure
  | greatest, bound, measure => measure.le bound

/-- The rule string with a whole number as the bound. -/
def text (limit : Limit) (n : Int) : String := limit.maker.identifier ++ ":" ++ toString n

variable (limit : Limit)

theorem build_text {s : String} {bound : Number} (read : (Value.str s).toBound = .ok bound) :
    limit.maker.build [.str s] = .ok (.ofKind (limit.kind bound)) := by
  cases limit <;> simp only [maker, BuiltIn.build, List.headD_cons, read] <;> rfl

theorem build_int (n : Int) :
    limit.maker.build [.int n] = .ok (.ofKind (limit.kind (.whole n))) := by
  cases limit <;> rfl

theorem check_eq (bound : Number) (value : Value) :
    ((Rule.ofKind (limit.kind bound)).check value).1 =
      .ok ((value.measure?.map (limit.admits bound)).getD false) := by
  cases limit <;> rfl

/-! ## Bounds that differ -/

theorem le_whole (a b : Int) : Number.le (.whole a) (.whole b) = decide (a ≤ b) := by
  have some : (0 : Int) < Number.twoTo 1074 := Int.natCast_pos.mpr (Number.twoTo_pos 1074)
  simp only [Number.le, Number.place?, Number.Place.le]
  rw [decide_eq_decide]
  exact Int.mul_le_mul_right some

theorem admits_whole (n k : Int) :
    limit.admits (.whole n) (.whole k) = match limit with
      | least => decide (n ≤ k)
      | greatest => decide (k ≤ n) := by
  cases limit <;> exact le_whole _ _

/-- A whole number that two bounds tell apart. -/
theorem admits_differ {m n : Int} (different : m ≠ n) :
    ∃ k : Int, limit.admits (.whole m) (.whole k) ≠ limit.admits (.whole n) (.whole k) := by
  rcases Int.lt_or_gt_of_ne different with less | greater
  · cases limit with
    | least => exact ⟨m, by simp [admits_whole]; omega⟩
    | greatest => exact ⟨n, by simp [admits_whole]; omega⟩
  · cases limit with
    | least => exact ⟨n, by simp [admits_whole]; omega⟩
    | greatest => exact ⟨m, by simp [admits_whole]; omega⟩

theorem admits_infinite (negative : Bool) (k : Int) :
    limit.admits (.binary (.infinite negative)) (.whole k) =
      (negative == decide (limit = least)) := by
  cases limit <;> cases negative <;> rfl

/-- An infinite bound admits all whole numbers or none, and no whole one does that. -/
theorem admits_infinite_differ (negative : Bool) (n : Int) :
    ∃ k : Int, limit.admits (.binary (.infinite negative)) (.whole k) ≠
      limit.admits (.whole n) (.whole k) := by
  simp only [admits_infinite, admits_whole]
  have above : ¬n ≤ n - 1 := by omega
  have below : ¬n + 1 ≤ n := by omega
  cases limit with
  | least =>
      cases negative with
      | false => exact ⟨n, by simp⟩
      | true => exact ⟨n - 1, by simp only [decide_eq_false above]; exact nofun⟩
  | greatest =>
      cases negative with
      | false => exact ⟨n + 1, by simp only [decide_eq_false below]; exact nofun⟩
      | true => exact ⟨n, by simp⟩

theorem admits_rounded {n : Int} (inexact : ¬Number.IsBinary n) :
    ∃ k : Int, limit.admits (.rounded n) (.whole k) ≠ limit.admits (.whole n) (.whole k) := by
  have changed : Number.rounded n ≠ .whole n := fun same =>
    inexact (Number.rounded_eq_self.mp same)
  rcases Number.rounded_whole_or_infinite n with ⟨m, whole⟩ | infinite
  · rw [whole] at changed ⊢
    exact limit.admits_differ fun same => changed (congrArg _ same)
  · rw [infinite]
    exact limit.admits_infinite_differ _ n

/-! ## Reading a bound -/

variable {w : Workspace}

/-- A rule string with a bound makes one rule, of the number to 53 digits. -/
theorem parse_text
    (listed : w.registry.entries.get? limit.maker.identifier =
      some (.ofClass (.builtIn limit.maker)))
    (n : Int)
    (current : ∀ kept, w.registry.cache.get? (limit.text n) = some kept →
      w.registry.tokenize (limit.text n) = .ok kept) :
    ∃ id w', Registry.parse (limit.text n) w = (.ok [id], w') ∧
      w'.rules.item id = .ofKind (limit.kind (.rounded n)) :=
  (limit.maker.parse_textOf listed n current).1 _ (limit.build_text (Value.toBound_whole n))

end Limit

/-- The rule string and the class with a whole number as the bound make rules that check by the
    number to 53 digits and by the number itself. They give the same verdicts on all values if the
    number is one of floating point, and otherwise not even on the whole numbers. -/
theorem Registry.parse_bound (limit : Limit) (n : Int) {w : Workspace}
    (listed : w.registry.entries.get? limit.maker.identifier =
      some (.ofClass (.builtIn limit.maker)))
    (current : ∀ kept, w.registry.cache.get? (limit.text n) = some kept →
      w.registry.tokenize (limit.text n) = .ok kept) :
    ∃ id w' given, Registry.parse (limit.text n) w = (.ok [id], w') ∧
      limit.maker.build [.int n] = .ok given ∧
      (∀ value, ((w'.rules.item id).check value).1 =
        .ok ((value.measure?.map (limit.admits (.rounded n))).getD false)) ∧
      (∀ value, (given.check value).1 =
        .ok ((value.measure?.map (limit.admits (.whole n))).getD false)) ∧
      (Number.IsBinary n →
        ∀ value, ((w'.rules.item id).check value).1 = (given.check value).1) ∧
      (¬Number.IsBinary n →
        ∃ k : Int, ((w'.rules.item id).check (.int k)).1 ≠ (given.check (.int k)).1) := by
  obtain ⟨id, w', parsed, made⟩ := limit.parse_text listed n current
  refine ⟨id, w', .ofKind (limit.kind (.whole n)), parsed, limit.build_int n, ?_⟩
  rw [made]
  refine ⟨limit.check_eq (.rounded n), limit.check_eq (.whole n), ?_, ?_⟩
  · intro exact value
    rw [Number.rounded_eq_self.mpr exact]
  · intro inexact
    obtain ⟨k, different⟩ := limit.admits_rounded inexact
    refine ⟨k, ?_⟩
    rw [limit.check_eq, limit.check_eq]
    simpa [Value.measure?] using different

theorem Registry.parse_bound_sample :
    ∃ id w' given, Registry.parse "min:18" { registry := .standard } = (.ok [id], w') ∧
      BuiltIn.min.build [.int 18] = .ok given ∧
      ∀ value, ((w'.rules.item id).check value).1 = (given.check value).1 := by
  have spelled : Limit.least.text 18 = "min:18" := by decide
  obtain ⟨id, w', given, parsed, built, _, _, exact, _⟩ :=
    Registry.parse_bound .least 18 (w := { registry := .standard }) rfl fun _ kept => nomatch kept
  rw [spelled] at parsed
  exact ⟨id, w', given, parsed, built, exact (.ofSmall (by decide))⟩

/-- One more than 53 digits can hold: the bound that is read is one less. -/
theorem Registry.parse_bound_inexact :
    ∃ id w' given,
      Registry.parse "min:9007199254740993" { registry := .standard } = (.ok [id], w') ∧
      BuiltIn.min.build [.int 9007199254740993] = .ok given ∧
      ((w'.rules.item id).check (.int 9007199254740992)).1 = .ok true ∧
      (given.check (.int 9007199254740992)).1 = .ok false := by
  have spelled : Limit.least.text 9007199254740993 = "min:9007199254740993" := by decide +kernel
  have lowered : Number.rounded 9007199254740993 = .whole 9007199254740992 := by decide +kernel
  obtain ⟨id, w', parsed, made⟩ := Limit.least.parse_text (w := { registry := .standard }) rfl
    9007199254740993 fun _ kept => nomatch kept
  rw [spelled] at parsed
  rw [lowered] at made
  refine ⟨id, w', _, parsed, Limit.least.build_int 9007199254740993, ?_, ?_⟩
  · rw [made, Limit.check_eq]
    simp [Value.measure?, Limit.admits_whole]
  · rw [Limit.check_eq]
    simp [Value.measure?, Limit.admits_whole]

end FieldRules
