import FieldRules.Proofs.Text.Pieces
import FieldRules.Proofs.Validation.Overrides

/-! # Overrides that are for something else

Dots divide the keys of overrides into segments. An override plays a part for a rule of an attribute
just if its first segment is the attribute and its second, if there is one, is what addresses the
rule. That one attribute or address is the beginning of another does not matter, and neither does
anything that is done to overrides that are for other attributes or rules.
-/

namespace FieldRules

namespace Messages

/-! ## Segments -/

/-- A name of one segment. -/
def Undotted (name : String) : Prop := '.' ∉ name.toList

/-- A name is another one, or goes on behind it with a dot. -/
def Under (start name : String) : Prop := name = start ∨ ∃ more, name = start ++ "." ++ more

/-- The first segment of a name. -/
def firstSegment (name : String) : String := String.ofList (Text.cut '.' name.toList).1

variable {start label key name : String}

theorem toList_dotted (start more : String) :
    (start ++ "." ++ more).toList = start.toList ++ '.' :: more.toList := by
  rw [String.toList_append, String.toList_append, List.append_assoc]
  rfl

theorem undotted_firstSegment (name : String) : Undotted (firstSegment name) := by
  rw [Undotted, firstSegment, String.toList_ofList]
  exact (Text.cut_cut '.' name.toList).uncut

/-- A name is under one segment, its first. -/
theorem under_iff (whole : Undotted start) : Under start name ↔ start = firstSegment name := by
  constructor
  · rintro (rfl | ⟨more, rfl⟩)
    · rw [firstSegment, Text.cut_whole whole, String.ofList_toList]
    · rw [firstSegment, toList_dotted, Text.cut_apart whole, String.ofList_toList]
  · rintro rfl
    obtain ⟨cs, rfl⟩ : ∃ cs, name = String.ofList cs := ⟨_, String.ofList_toList.symm⟩
    rw [firstSegment, String.toList_ofList]
    rcases cutAt : Text.cut '.' cs with ⟨before, after⟩
    cases Text.cut_iff.mpr cutAt with
    | whole uncut => exact .inl rfl
    | apart uncut after =>
        refine .inr ⟨String.ofList after, String.toList_inj.mp ?_⟩
        simp only [toList_dotted, String.toList_ofList]

theorem under_unique {other : String} (whole : Undotted start) (otherWhole : Undotted other)
    (here : Under start name) (there : Under other name) : other = start :=
  ((under_iff otherWhole).mp there).trans ((under_iff whole).mp here).symm

theorem under_dotted : Under (label ++ "." ++ key) name ↔
    ∃ rest, name = label ++ "." ++ rest ∧ Under key rest := by
  constructor
  · rintro (rfl | ⟨more, rfl⟩)
    · exact ⟨key, rfl, .inl rfl⟩
    · exact ⟨key ++ "." ++ more, by simp only [String.append_assoc], .inr ⟨more, rfl⟩⟩
  · rintro ⟨rest, rfl, rfl | ⟨more, rfl⟩⟩
    · exact .inl rfl
    · exact .inr ⟨more, by simp only [String.append_assoc]⟩

theorem dotted_inj {rest other : String} (same : label ++ "." ++ rest = label ++ "." ++ other) :
    rest = other := by
  have characters := congrArg String.toList same
  rw [toList_dotted, toList_dotted] at characters
  exact String.toList_inj.mp (List.cons.inj (List.append_cancel_left characters)).2

/-! ## Overrides for other attributes and rules -/

/-- The key of an override for another attribute, or for another rule of the attribute. -/
inductive Elsewhere (label key : String) : String → Prop where
  | attribute {other name : String} (whole : Undotted other) (different : other ≠ label)
      (under : Under other name) : Elsewhere label key name
  | rule {other name : String} (whole : Undotted other) (different : other ≠ key)
      (under : Under (label ++ "." ++ other) name) : Elsewhere label key name

theorem Concerns.under (concerned : Concerns label (label ++ "." ++ key) name) :
    Under label name := by
  rcases concerned with rfl | rfl | ⟨code, rfl⟩
  · exact .inl rfl
  · exact .inr ⟨key, rfl⟩
  · exact .inr ⟨key ++ "." ++ code, by simp only [String.append_assoc]⟩

/-- An override concerns a rule of an attribute just if it is not for something else. -/
theorem elsewhere_iff (whole : Undotted label) (keyWhole : Undotted key) :
    Elsewhere label key name ↔ ¬Concerns label (label ++ "." ++ key) name := by
  constructor
  · rintro (⟨otherWhole, different, under⟩ | @⟨other, _, otherWhole, different, under⟩) concerned
    · exact different (under_unique whole otherWhole concerned.under under)
    · obtain ⟨rest, rfl, underRest⟩ := under_dotted.mp under
      rcases concerned with same | addressed
      · have shorter := congrArg String.length same
        simp only [String.length_append] at shorter
        have dot : ".".length = 1 := rfl
        omega
      · obtain ⟨rest', same, underKey⟩ := under_dotted.mp addressed
        obtain rfl := dotted_inj same
        exact different (under_unique keyWhole otherWhole underKey underRest)
  · intro unconcerned
    have first := undotted_firstSegment name
    by_cases own : firstSegment name = label
    · rcases (under_iff whole).mpr own.symm with rfl | ⟨rest, rfl⟩
      · exact absurd (.inl rfl) unconcerned
      · -- The second segment decides, whatever follows behind it.
        have second := undotted_firstSegment rest
        have underSecond : Under (firstSegment rest) rest := (under_iff second).mpr rfl
        refine .rule second ?_ (under_dotted.mpr ⟨rest, rfl, underSecond⟩)
        rintro rfl
        exact unconcerned (.inr (under_dotted.mpr ⟨rest, rfl, underSecond⟩))
    · exact .attribute first own ((under_iff first).mpr rfl)

theorem mem_candidates {overrides : Keyed Value} {key : RuleKey} :
    name ∈ (candidates overrides label key).names ↔
      name ∈ overrides.names ∧ Concerns label (ruleAddress label key) name := by
  rw [candidates, Keyed.names_filter, List.mem_filter, concerns_iff]

theorem candidates_other (whole : Undotted label) {other : String} (otherWhole : Undotted other)
    (different : other ≠ label) (under : Under other name) (overrides : Keyed Value)
    (key : RuleKey) : name ∉ (candidates overrides label key).names := by
  intro member
  have concerned := (mem_candidates.mp member).2
  exact different (under_unique whole otherWhole concerned.under under)

/-! ## Changes elsewhere -/

/-- Overrides that differ only in some that are elsewhere: these may be there or not, say something
    else, or stand in another place. -/
inductive SameBut (elsewhere : String → Prop) : Keyed Value → Keyed Value → Prop where
  | nil : SameBut elsewhere [] []
  | kept (entry : String × Value) {rest others : Keyed Value}
      (same : SameBut elsewhere rest others) :
      SameBut elsewhere (entry :: rest) (entry :: others)
  | removed {entry : String × Value} (away : elsewhere entry.1) {rest others : Keyed Value}
      (same : SameBut elsewhere rest others) : SameBut elsewhere (entry :: rest) others
  | added {entry : String × Value} (away : elsewhere entry.1) {rest others : Keyed Value}
      (same : SameBut elsewhere rest others) : SameBut elsewhere rest (entry :: others)

namespace SameBut

variable {elsewhere : String → Prop}

theorem refl (overrides : Keyed Value) : SameBut elsewhere overrides overrides := by
  induction overrides with
  | nil => exact .nil
  | cons entry rest ih => exact .kept entry ih

theorem put (away : elsewhere name) (message : Value) (overrides : Keyed Value) :
    SameBut elsewhere overrides (overrides.put name message) := by
  induction overrides with
  | nil => exact .added away .nil
  | cons entry rest ih =>
      obtain ⟨other, old⟩ := entry
      simp only [Keyed.put]
      split
      · subst_vars
        exact .removed away (.added away (refl rest))
      · exact .kept _ ih

theorem drop (away : elsewhere name) (overrides : Keyed Value) :
    SameBut elsewhere overrides (overrides.drop name) := by
  induction overrides with
  | nil => exact .nil
  | cons entry rest ih =>
      by_cases here : entry.1 = name
      · subst here
        simpa [Keyed.drop] using removed away ih
      · simpa [Keyed.drop, here] using kept entry ih

end SameBut

theorem candidates_same {key : RuleKey} (whole : Undotted label) (keyWhole : Undotted key.text)
    {overrides others : Keyed Value} (same : SameBut (Elsewhere label key.text) overrides others) :
    candidates others label key = candidates overrides label key := by
  have unconcerned {name : String} (away : Elsewhere label key.text name) :
      concerns label (ruleAddress label key) name = false := by
    have none := mt concerns_iff.mp ((elsewhere_iff whole keyWhole).mp away)
    exact Bool.not_eq_true _ ▸ none
  simp only [candidates]
  -- Along the differences: what is elsewhere is filtered out on either side.
  induction same with
  | nil => rfl
  | kept entry same ih => simp only [List.filter_cons, ih]
  | removed away same ih => rw [ih, List.filter_cons_of_neg (by simp [unconcerned away])]
  | added away same ih => rw [List.filter_cons_of_neg (by simp [unconcerned away]), ih]

theorem resolve_same {key : RuleKey} (whole : Undotted label) (keyWhole : Undotted key.text)
    {overrides others : Keyed Value} (same : SameBut (Elsewhere label key.text) overrides others)
    (rule : Rule) : resolve others label key rule = resolve overrides label key rule := by
  rw [resolve_eq, resolve_eq, overriding, overriding, candidates_same whole keyWhole same]

/-! ## Positions -/

theorem position_toList (count : Int) : (RuleKey.position count).text.toList =
    (if 0 ≤ count then [] else ['-']) ++ Nat.toDigits 10 count.natAbs := by
  show (Int.repr count).toList = _
  rw [Int.repr_eq_if]
  split
  · have whole : count.toNat = count.natAbs := by omega
    simp [Nat.repr_eq_ofList_toDigits, whole]
  · have whole : (-count).toNat = count.natAbs := by omega
    simp [Nat.repr_eq_ofList_toDigits, whole]

theorem isDigit_of_mem_position {n : Nat} {c : Char} (inside : c ∈ Nat.toDigits 10 n) :
    c.isDigit = true := Nat.isDigit_of_mem_toDigits (by decide) (by decide) inside

theorem undotted_position (count : Int) : Undotted (RuleKey.position count).text := by
  rw [Undotted, position_toList, List.mem_append, not_or]
  refine ⟨?_, fun inside => absurd (isDigit_of_mem_position inside) (by decide)⟩
  split <;> simp

theorem position_inj {m n : Int} (same : (RuleKey.position m).text = (RuleKey.position n).text) :
    m = n := by
  have characters := congrArg String.toList same
  rw [position_toList, position_toList] at characters
  have unsigned {k : Nat} {rest : List Char} (digits : Nat.toDigits 10 k = '-' :: rest) : False :=
    absurd (isDigit_of_mem_position (digits ▸ List.mem_cons_self)) (by decide)
  have amount {j k : Nat} (digits : Nat.toDigits 10 j = Nat.toDigits 10 k) : j = k := by
    have numbers := congrArg (Nat.ofDigitChars 10 · 0) digits
    simpa using numbers
  -- The sign is told from the digits by its character, the amounts by their digits.
  by_cases first : 0 ≤ m <;> by_cases second : 0 ≤ n <;>
    simp only [first, second, if_true, if_false, List.nil_append,
      List.singleton_append] at characters
  · have := amount characters
    omega
  · exact (unsigned characters).elim
  · exact (unsigned characters.symm).elim
  · have := amount (List.cons.inj characters).2
    omega

/-- Overrides are isolated by segments. An override for another attribute is never a candidate for
an attribute. Of the others, just those are candidates for a rule of it that are not for another
rule; and rules addressed by different numbers are different rules, even if one number begins with
the other. So whatever is done to overrides that are for something else, the messages for the rule
are the same, whatever codes it has recorded. -/
theorem resolve_isolated (whole : Undotted label) :
    (∀ (key : RuleKey) (other name : String) (overrides : Keyed Value), Undotted other →
      other ≠ label → Under other name → name ∉ (candidates overrides label key).names) ∧
    (∀ (key : RuleKey) (name : String) (overrides : Keyed Value), Undotted key.text →
      (name ∈ (candidates overrides label key).names ↔
        name ∈ overrides.names ∧ ¬Elsewhere label key.text name)) ∧
    (∀ m n : Int, Undotted (RuleKey.position m).text ∧
      (m ≠ n → (RuleKey.position m).text ≠ (RuleKey.position n).text)) ∧
    ∀ registry rules id recorded,
      let key := RuleKey.ofRule registry rules id recorded
      Undotted key.text → ∀ (overrides : Keyed Value) (codes : List Value),
        let resolved overrides := resolve overrides label key
          { rules.item id with violations := codes }
        (∀ others, SameBut (Elsewhere label key.text) overrides others →
          resolved others = resolved overrides) ∧
        ∀ name, Elsewhere label key.text name →
          (∀ message, resolved (overrides.put name message) = resolved overrides) ∧
          resolved (overrides.drop name) = resolved overrides := by
  refine ⟨?attributes, ?rules, ?positions, ?resolved⟩
  case attributes =>
    intro key other name overrides otherWhole different under
    exact candidates_other whole otherWhole different under overrides key
  case rules =>
    intro key name overrides keyWhole
    rw [mem_candidates, elsewhere_iff whole keyWhole, Classical.not_not, ruleAddress]
  case positions =>
    exact fun m n => ⟨undotted_position m, mt position_inj⟩
  case resolved =>
    intro registry rules id recorded key keyWhole overrides codes resolved
    have unchanged {others : Keyed Value}
        (same : SameBut (Elsewhere label key.text) overrides others) :
        resolved others = resolved overrides := resolve_same whole keyWhole same _
    refine ⟨fun others same => unchanged same, fun name away => ⟨fun message => ?_, ?_⟩⟩
    · exact unchanged (.put away message overrides)
    · exact unchanged (.drop away overrides)

/-- A rule without a name that has one message before it, with overrides for the tenth rule and for
    an attribute that begins like its own. -/
theorem resolve_isolated_sample :
    resolve [("code.10", .str "Tenth"), ("codes.1", .str "Other"), ("code.1", .str "First")] "code"
      (.ofRule none (Shelf.empty.add (Rule.ofKind (.wrapped false "" []))).2 0 1)
      { Rule.ofKind (.wrapped false "" []) with violations := [] } = .ok [.str "First"] := by
  have whole : Undotted "code" := by simp [Undotted]
  obtain ⟨_, _, _, resolved⟩ := resolve_isolated whole
  have tenWhole : Undotted "10" := by simp [Undotted]
  have tenth : Elsewhere "code" "1" "code.10" := .rule tenWhole (by decide) (.inl rfl)
  have codesWhole : Undotted "codes" := by simp [Undotted]
  have other : Elsewhere "code" "1" "codes.1" :=
    .attribute codesWhole (by decide) (.inr ⟨"1", rfl⟩)
  have same : SameBut (Elsewhere "code" "1") [("code.1", .str "First")]
      [("code.10", .str "Tenth"), ("codes.1", .str "Other"), ("code.1", .str "First")] :=
    .added tenth (.added other (.refl _))
  have unchanged := (resolved none (Shelf.empty.add (Rule.ofKind (.wrapped false "" []))).2 0 1
    (undotted_position 1) [("code.1", .str "First")] []).1 _ same
  exact unchanged.trans rfl

end Messages

end FieldRules
