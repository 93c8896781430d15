import FieldRules.Proofs.Number.Overflow
import FieldRules.Rule.Message

/-! # Faults that templates let out

A template that cannot be filled in is left as it is written, but only for some of the faults. The
others are let out: for an item or a part of a value that has none, for a whole number in a layout
that is too small for it, for a value that has no layouts, and whatever of this kind the host raises
over the members of values and its own objects. `Template.Escape` says where in a template that
comes about, from the pieces of the template, and `fillWith_throws` that it comes about nowhere
else, in any host.
-/

namespace FieldRules

/-! ## Outcomes with a fault that is let out -/

/-- An outcome is a fault for which a template is not left as it is written. -/
def Outcome.Throws {α : Type} (outcome : Outcome α) (fault : Fault) : Prop :=
  outcome = .error fault ∧ fault.keepsTemplate = false

namespace Outcome.Throws

variable {α β : Type} {fault : Fault}

theorem ok {a : α} : ¬Throws (.ok a : Outcome α) fault := fun thrown => nomatch thrown.1

theorem kept {other : Fault} (keeps : other.keepsTemplate = true) :
    ¬Throws (.error other : Outcome α) fault := by
  rintro ⟨same, thrown⟩
  obtain rfl := Except.error.inj same
  exact absurd (keeps.symm.trans thrown) (by decide)

theorem error {other : Fault} (loose : other.keepsTemplate = false) :
    Throws (.error other : Outcome α) fault ↔ fault = other := by
  constructor
  · rintro ⟨same, _⟩
    exact (Except.error.inj same).symm
  · rintro rfl
    exact ⟨rfl, loose⟩

theorem lift {read : Except TemplateFault α} : ¬Throws (Template.lift read) fault := by
  cases read with
  | ok a => exact ok
  | error reason => exact kept rfl

theorem bind {outcome : Outcome α} {next : α → Outcome β} :
    Throws (outcome >>= next) fault ↔
      Throws outcome fault ∨ ∃ a, outcome = .ok a ∧ Throws (next a) fault := by
  cases outcome with
  | error other => simp [Throws, Bind.bind, Except.bind]
  | ok a => simp [Throws, Bind.bind, Except.bind]

theorem map {outcome : Outcome α} {f : α → β} :
    Throws (outcome.map f) fault ↔ Throws outcome fault := by
  cases outcome with
  | error other => simp [Throws, Except.map]
  | ok a => simp [Throws, Except.map]

/-- A fault is let out along a list just if it is at some place that is reached. -/
theorem foldlM {step : β → α → Outcome β} {start : β} {items : List α} :
    Throws (items.foldlM step start) fault ↔ ∃ before item after reached,
      items = before ++ item :: after ∧ before.foldlM step start = .ok reached ∧
        Throws (step reached item) fault := by
  induction items generalizing start with
  | nil => exact ⟨fun thrown => absurd thrown ok, fun ⟨before, item, after, _, split, _⟩ =>
      absurd split.symm (by simp)⟩
  | cons first rest ih =>
      rw [List.foldlM_cons, bind]
      -- The first item lets the fault out, or it is passed and one behind it does.
      constructor
      · rintro (thrown | ⟨next, stepped, thrown⟩)
        · exact ⟨[], first, rest, start, rfl, rfl, thrown⟩
        · obtain ⟨before, item, after, reached, rfl, walked, there⟩ := ih.mp thrown
          refine ⟨first :: before, item, after, reached, rfl, ?_, there⟩
          rw [List.foldlM_cons, stepped]
          exact walked
      · rintro ⟨before, item, after, reached, split, walked, there⟩
        cases before with
        | nil =>
            obtain ⟨rfl, rfl⟩ := List.cons.inj split
            obtain rfl := Except.ok.inj walked
            exact .inl there
        | cons first' before =>
            obtain ⟨rfl, rfl⟩ := List.cons.inj split
            rw [List.foldlM_cons] at walked
            obtain ⟨next, stepped, walked⟩ := Outcome.bind_ok walked
            have later := ih.mpr ⟨before, item, after, reached, rfl, walked, there⟩
            exact .inr ⟨next, stepped, later⟩

end Outcome.Throws

open Outcome (Throws)

theorem Value.print_keeps (value : Value) (fault : Fault) : ¬Throws value.print fault := by
  simp only [Value.print]
  split
  · exact Throws.ok
  · exact Throws.kept rfl

theorem Value.plain_keeps (value : Value) (fault : Fault) : ¬Throws value.plain fault := by
  simp only [Value.plain]
  split
  · exact Throws.ok
  · exact Throws.kept rfl

/-- A value whose items are at indices. -/
def Value.isRow : Value → Bool
  | .str _ | .list _ | .tuple _ | .bytes _ => true
  | _ => false

/-- A value without items. -/
def Value.isSingle : Value → Bool
  | .str _ | .list _ | .tuple _ | .bytes _ | .dict _ => false
  | _ => true

/-- A value that can be laid out. -/
def Value.hasLayouts : Value → Bool
  | .str _ | .int _ | .bool _ | .float _ | .date _ | .datetime _ => true
  | _ => false

namespace Template

/-! ## Ways -/

/-- What a template is filled in with, and what is missing, is no fault that is let out. -/
structure Supply.Simple (supply : Supply) : Prop where
  named : ∀ name fault, ¬Throws (supply.named name) fault
  placed : ∀ position, (supply.placed position).keepsTemplate = true

/-- The key that a way between brackets asks for. -/
def Way.key? : Way → Option Value
  | .item index => some (.int index)
  | .key name => some (.str (String.ofList name))
  | _ => none

/-- A way that cannot be taken, with the fault that is let out: a row has no part under a name, a
value that is neither a row nor a dictionary has no items and parts at all, a dictionary may have no
entry, and the host may refuse a member, or an item of an object. -/
inductive Blocked (host : Host) : Thing → Way → Fault → Prop where
  | rowKey {value : Value} (row : value.isRow = true) (name : List Char) :
      Blocked host (.value value) (.key name) (.wrongIndex value.typeName)
  | single {value : Value} (single : value.isSingle = true) {way : Way} {key : Value}
      (asked : way.key? = some key) :
      Blocked host (.value value) way (.notSubscriptable value.qualifiedTypeName)
  | missing {entries : List (Value × Value)} {way : Way} {key : Value}
      (asked : way.key? = some key) (absent : Value.lookup? key entries = none) :
      Blocked host (.value (.dict entries)) way (.missingKey key)
  | member {thing : Thing} {name : List Char} {fault : Fault}
      (raised : Throws (host.member thing (String.ofList name)) fault) :
      Blocked host thing (.member name) fault
  | object {id : Nat} {way : Way} {key : Value} {fault : Fault} (asked : way.key? = some key)
      (raised : Throws (host.item id key) fault) : Blocked host (.object id) way fault

theorem itemAt_keeps {α : Type} (typeName : String) (items : List α) (index : Nat) (fault : Fault) :
    ¬Throws (itemAt typeName items index) fault := by
  simp only [itemAt]
  split
  · exact Throws.ok
  · exact Throws.kept rfl

theorem entryAt_throws {key : Value} {entries : List (Value × Value)} {fault : Fault} :
    Throws (entryAt key entries) fault ↔
      Value.lookup? key entries = none ∧ fault = .missingKey key := by
  simp only [entryAt]
  cases Value.lookup? key entries with
  | some value => exact iff_of_false Throws.ok fun absent => nomatch absent.1
  | none => rw [Throws.error rfl, eq_self, true_and]

section Values

variable {host : Host} {value : Value} {fault : Fault}

/-- A row blocks just its parts under names. -/
theorem blocked_row (row : value.isRow = true) {way : Way} {key : Value}
    (asked : way.key? = some key) :
    Blocked host (.value value) way fault ↔
      ∃ name, way = .key name ∧ fault = .wrongIndex value.typeName := by
  constructor
  · intro blocked
    cases blocked with
    | rowKey _ name => exact ⟨name, rfl, rfl⟩
    | single single => cases value <;> cases row <;> cases single
    | missing => cases row
    | member => cases asked
  · rintro ⟨name, rfl, rfl⟩
    exact .rowKey row name

/-- A value without items and parts blocks every way to one. -/
theorem blocked_single (single : value.isSingle = true) {way : Way} {key : Value}
    (asked : way.key? = some key) :
    Blocked host (.value value) way fault ↔ fault = .notSubscriptable value.qualifiedTypeName := by
  constructor
  · intro blocked
    cases blocked with
    | rowKey row => cases value <;> cases row <;> cases single
    | single => rfl
    | missing => cases single
    | member => cases asked
  · rintro rfl
    exact .single single asked

theorem blocked_dict {entries : List (Value × Value)} {way : Way} {key : Value}
    (asked : way.key? = some key) :
    Blocked host (.value (.dict entries)) way fault ↔
      Value.lookup? key entries = none ∧ fault = .missingKey key := by
  constructor
  · intro blocked
    cases blocked with
    | rowKey row => cases row
    | single single => cases single
    | missing asked' absent =>
        obtain rfl := Option.some.inj (asked.symm.trans asked')
        exact ⟨absent, rfl⟩
    | member => cases asked
  · rintro ⟨absent, rfl⟩
    exact .missing asked absent

theorem itemOf_throws {index : Nat} :
    Throws (itemOf value index) fault ↔ Blocked host (.value value) (.item index) fault := by
  have asked : (Way.item index).key? = some (.int index) := rfl
  have row (row : value.isRow = true) (kept : ¬Throws (itemOf value index) fault) :
      Throws (itemOf value index) fault ↔ Blocked host (.value value) (.item index) fault := by
    rw [blocked_row row asked]
    exact iff_of_false kept fun ⟨_, same, _⟩ => nomatch same
  have single (single : value.isSingle = true)
      (refused : itemOf value index = .error (.notSubscriptable value.qualifiedTypeName)) :
      Throws (itemOf value index) fault ↔ Blocked host (.value value) (.item index) fault := by
    rw [blocked_single single asked, refused, Throws.error rfl]
  cases value with
  | str s => exact row rfl (mt Throws.map.mp (itemAt_keeps _ _ _ _))
  | bytes octets => exact row rfl (mt Throws.map.mp (itemAt_keeps _ _ _ _))
  | list items | tuple items => exact row rfl (itemAt_keeps _ _ _ _)
  | dict entries =>
      rw [blocked_dict asked]
      exact entryAt_throws
  | _ => exact single rfl rfl

theorem partOf_throws {name : List Char} :
    Throws (partOf value (String.ofList name)) fault ↔
      Blocked host (.value value) (.key name) fault := by
  have asked : (Way.key name).key? = some (.str (String.ofList name)) := rfl
  have row (row : value.isRow = true)
      (refused : partOf value (String.ofList name) = .error (.wrongIndex value.typeName)) :
      Throws (partOf value (String.ofList name)) fault ↔
        Blocked host (.value value) (.key name) fault := by
    rw [blocked_row row asked, refused, Throws.error rfl]
    exact ⟨fun same => ⟨name, rfl, same⟩, fun ⟨_, _, same⟩ => same⟩
  have single (single : value.isSingle = true)
      (refused : partOf value (String.ofList name) =
        .error (.notSubscriptable value.qualifiedTypeName)) :
      Throws (partOf value (String.ofList name)) fault ↔
        Blocked host (.value value) (.key name) fault := by
    rw [blocked_single single asked, refused, Throws.error rfl]
  cases value with
  | str s | bytes octets | list items | tuple items => exact row rfl rfl
  | dict entries =>
      rw [blocked_dict asked]
      exact entryAt_throws
  | _ => exact single rfl rfl

end Values

theorem follow_throws {host : Host} {thing : Thing} {way : Way} {fault : Fault} :
    Throws (follow host thing way) fault ↔ Blocked host thing way fault := by
  have object {id : Nat} {way : Way} {key : Value} (asked : way.key? = some key)
      (taken : follow host (.object id) way = host.item id key) :
      Throws (follow host (.object id) way) fault ↔ Blocked host (.object id) way fault := by
    rw [taken]
    constructor
    · exact .object asked
    · intro blocked
      cases blocked with
      | member => cases asked
      | object asked' raised =>
          obtain rfl := Option.some.inj (asked.symm.trans asked')
          exact raised
  cases way with
  | broken reason =>
      have kept : follow host thing (.broken reason) = .error (.template reason) := by
        cases thing <;> rfl
      rw [kept]
      refine iff_of_false (Throws.kept rfl) fun blocked => ?_
      cases blocked with
      | single _ asked | missing asked | object asked => cases asked
  | member name =>
      have asked : follow host thing (.member name) = host.member thing (String.ofList name) := by
        cases thing <;> rfl
      rw [asked]
      constructor
      · exact .member
      · intro blocked
        cases blocked with
        | single _ asked | missing asked | object asked => cases asked
        | member raised => exact raised
  | item index =>
      cases thing with
      | value value => exact Throws.map.trans itemOf_throws
      | object id => exact object rfl rfl
  | key name =>
      cases thing with
      | value value => exact Throws.map.trans partOf_throws
      | object id => exact object rfl rfl

/-! ## Layouts -/

/-- A layout that shows whole numbers as characters. -/
structure Layout.IsCharacter (layout : Layout) : Prop where
  code : layout.code = some 'c'
  sign : layout.sign = none
  alternate : layout.alternate = false
  precision : layout.precision = none
  clearZero : layout.clearZero = false

/-- A whole number that is too great for a layout: there is no floating-point number near to it,
or it is no character. -/
inductive Layout.Exceeds (layout : Layout) (n : Int) : Fault → Prop where
  | binary {code : Char} (asked : layout.code = some code) (binary : code ∈ "eEfFgG%".toList)
      (great : Number.twoTo 1024 - Number.twoTo 970 ≤ n.natAbs) : Exceeds layout n .integerToFloat
  | word (character : layout.IsCharacter)
      (wide : n < -(Number.twoTo 63 : Int) ∨ (Number.twoTo 63 : Int) ≤ n) :
      Exceeds layout n .integerToCode
  | character (character : layout.IsCharacter) (least : -(Number.twoTo 63 : Int) ≤ n)
      (most : n < (Number.twoTo 63 : Int)) (outside : n < 0 ∨ 0x10ffff < n) :
      Exceeds layout n .codeOutOfRange

/-- The conversion of whole numbers, as it is written. Both sides stay functions: for a number
that is not given, unfolding the conversion would have its rounding evaluated. -/
theorem binaryOfInteger_eq : binaryOfInteger = fun n =>
    match Number.Magnitude.ofRatio? n.natAbs 1 with
    | some magnitude => .ok (.finite (n < 0) magnitude)
    | none => .error .integerToFloat := (rfl)

theorem binaryOfInteger_throws {n : Int} {fault : Fault} :
    Throws (binaryOfInteger n) fault ↔
      Number.twoTo 1024 - Number.twoTo 970 ≤ n.natAbs ∧ fault = .integerToFloat := by
  have beyond := Number.Magnitude.ofRatio?_whole (n := n.natAbs)
  rw [binaryOfInteger_eq]
  cases given : Number.Magnitude.ofRatio? n.natAbs 1 with
  | none =>
      simp only [given]
      rw [Throws.error rfl]
      exact ⟨fun same => ⟨beyond.mp given, same⟩, And.right⟩
  | some magnitude =>
      simp only [given]
      refine iff_of_false Throws.ok fun ⟨great, _⟩ => ?_
      exact nomatch given.symm.trans (beyond.mpr great)

namespace Layout

variable {layout : Layout} {n : Int} {fault : Fault}

theorem ofBinary_keeps (layout : Layout) (typeName : String) (x : Number.Binary64) (fault : Fault) :
    ¬Throws (layout.ofBinary typeName x) fault := by
  simp only [ofBinary]
  split
  · exact Throws.kept rfl
  · split
    · exact Throws.kept rfl
    · exact Throws.ok

theorem Exceeds.isCharacter (exceeds : layout.Exceeds n fault)
    (unbinary : ∀ code, layout.code = some code → code ∉ "eEfFgG%".toList) :
    layout.IsCharacter := by
  cases exceeds with
  | binary asked binary => exact absurd binary (unbinary _ asked)
  | word character | character character => exact character

theorem ofCode_throws (shown : layout.IsCharacter) :
    Throws (layout.ofCode n) fault ↔ layout.Exceeds n fault := by
  have word : Number.twoTo 63 = 9223372036854775808 := rfl
  have unbinary : ∀ code, layout.code = some code → code ∉ "eEfFgG%".toList := by
    intro code asked
    obtain rfl := Option.some.inj (asked.symm.trans shown.code)
    decide
  simp only [ofCode, shown.sign, shown.alternate, Option.isSome_none, Bool.false_eq_true, if_false,
    Bool.or_eq_true, decide_eq_true_eq]
  -- The range of machine words comes before that of characters, and has a fault of its own.
  split
  · rename_i wide
    rw [Throws.error rfl]
    constructor
    · rintro rfl
      exact .word shown wide
    · intro exceeds
      cases exceeds with
      | binary asked binary => exact absurd binary (unbinary _ asked)
      | word => rfl
      | character _ least most => omega
  · split
    · rename_i narrow outside
      rw [Throws.error rfl]
      constructor
      · rintro rfl
        exact .character shown (by omega) (by omega) outside
      · intro exceeds
        cases exceeds with
        | binary asked binary => exact absurd binary (unbinary _ asked)
        | word _ wide => exact absurd wide narrow
        | character => rfl
    · rename_i narrow inside
      refine iff_of_false Throws.ok fun exceeds => ?_
      cases exceeds with
      | binary asked binary => exact absurd binary (unbinary _ asked)
      | word _ wide => exact narrow wide
      | character _ _ _ outside => exact inside outside

theorem ofCode_keeps (unfit : layout.sign = none → layout.alternate = true) :
    ¬Throws (layout.ofCode n) fault := by
  simp only [ofCode]
  split
  · exact Throws.kept rfl
  · rename_i signless
    rw [if_pos (unfit (by simpa using signless))]
    exact Throws.kept rfl

theorem ofWhole_binary {code : Char} (asked : layout.code = some code)
    (binary : code ∈ "eEfFgG%".toList) (typeName : String) :
    Throws (layout.ofWhole typeName n) fault ↔
      Number.twoTo 1024 - Number.twoTo 970 ≤ n.natAbs ∧ fault = .integerToFloat := by
  have listed : "eEfFgG%".toList.contains (layout.code.getD 'd') = true := by
    simpa [asked] using binary
  simp only [ofWhole, listed, if_true, Throws.bind, binaryOfInteger_throws, ofBinary_keeps,
    and_false, exists_false, or_false]

theorem not_contains_unbinary (unbinary : ∀ code, layout.code = some code → code ∉ "eEfFgG%".toList) :
    ¬"eEfFgG%".toList.contains (layout.code.getD 'd') = true := by
  cases asked : layout.code with
  | none => decide
  | some code => simpa using unbinary code asked

theorem ofWhole_character (shown : layout.IsCharacter) (typeName : String) :
    layout.ofWhole typeName n = layout.ofCode n := by
  have unlisted : ("eEfFgG%".toList.contains 'c') = false := by decide
  have known : (!"bcdoxXn".toList.contains 'c') = false := by decide
  simp only [ofWhole, shown.code, shown.precision, shown.clearZero, unlisted, known,
    Option.getD_some, Option.isSome_none, Bool.false_eq_true, if_false]

/-- A layout that is neither for floating-point numbers nor for characters suits whole numbers, or
it is refused as such. -/
theorem ofWhole_keeps (unbinary : ∀ code, layout.code = some code → code ∉ "eEfFgG%".toList)
    (shown : ¬layout.IsCharacter) (typeName : String) :
    ¬Throws (layout.ofWhole typeName n) fault := by
  simp only [ofWhole, if_neg (not_contains_unbinary unbinary)]
  split
  · exact Throws.kept rfl
  · split
    · exact Throws.kept rfl
    · split
      · exact Throws.kept rfl
      · rename_i precise clears
        split
        · rename_i asked
          have code : layout.code = some 'c' := by
            cases given : layout.code with
            | none => simp [given] at asked
            | some code => simpa [given] using asked
          refine ofCode_keeps fun signless => ?_
          cases plain : layout.alternate with
          | true => rfl
          | false =>
              refine absurd ⟨code, signless, plain, ?_, ?_⟩ shown
              · simpa using precise
              · simpa using clears
        · exact Throws.ok
        · exact Throws.ok
        · exact Throws.ok
        · exact Throws.ok
        · split
          · exact Throws.ok
          · exact Throws.kept rfl

/-- A whole number is let out of its layout just if it exceeds it. -/
theorem ofWhole_throws (layout : Layout) (typeName : String) (n : Int) (fault : Fault) :
    Throws (layout.ofWhole typeName n) fault ↔ layout.Exceeds n fault := by
  -- Layouts for floating-point numbers are exceeded by magnitude, others only as characters.
  by_cases binary : ∃ code, layout.code = some code ∧ code ∈ "eEfFgG%".toList
  · obtain ⟨code, asked, binary⟩ := binary
    rw [ofWhole_binary asked binary]
    constructor
    · rintro ⟨great, rfl⟩
      exact .binary asked binary great
    · intro exceeds
      cases exceeds with
      | binary _ _ great => exact ⟨great, rfl⟩
      | word character | character character =>
          obtain rfl := Option.some.inj (asked.symm.trans character.code)
          exact absurd binary (by decide)
  · have unbinary : ∀ code, layout.code = some code → code ∉ "eEfFgG%".toList :=
      fun code asked inside => binary ⟨code, asked, inside⟩
    by_cases shown : layout.IsCharacter
    · rw [ofWhole_character shown]
      exact ofCode_throws shown
    · exact iff_of_false (ofWhole_keeps unbinary shown typeName)
        fun exceeds => shown (exceeds.isCharacter unbinary)

theorem not_exceeds_nil (read : Layout.read "int" (some 'd') .right [] = .ok layout) :
    ¬layout.Exceeds n fault := by
  obtain rfl := Except.ok.inj read
  intro exceeds
  cases exceeds with
  | binary asked binary =>
      obtain rfl := Option.some.inj asked
      exact absurd binary (by decide)
  | word character | character character => exact absurd character.code (by decide)

end Layout

/-- A truth value in a layout is a number that exceeds none. -/
theorem Layout.not_exceeds_truth {layout : Layout} (b : Bool) {fault : Fault} :
    ¬layout.Exceeds (if b then 1 else 0) fault := by
  intro exceeds
  cases exceeds with
  | binary _ _ great => cases b <;> exact absurd great (by decide +kernel)
  | word _ wide => cases b <;> exact absurd wide (by decide +kernel)
  | character _ _ _ outside => cases b <;> exact absurd outside (by decide)

/-- What does not fit its layout: a whole number that exceeds it, a value without layouts if there
is any layout, and an object that the host does not lay out. -/
inductive Unfit (host : Host) (spec : List Char) : Thing → Fault → Prop where
  | whole {n : Int} {layout : Layout} {fault : Fault}
      (read : Layout.read "int" (some 'd') .right spec = .ok layout)
      (exceeds : layout.Exceeds n fault) : Unfit host spec (.value (.int n)) fault
  | unlaid {value : Value} (asked : spec ≠ []) (none : value.hasLayouts = false) :
      Unfit host spec (.value value) (.unsupportedFormat value.qualifiedTypeName)
  | object {id : Nat} {fault : Fault} (raised : Throws (host.layOut id spec) fault) :
      Unfit host spec (.object id) fault

section Values

variable {host : Host} {spec : List Char} {value : Value} {n : Int} {fault : Fault}

theorem unfit_nil : ¬Unfit host [] (.value value) fault := by
  intro unfit
  cases unfit with
  | whole read exceeds => exact Layout.not_exceeds_nil read exceeds
  | unlaid asked => exact asked rfl

/-- Of the values with layouts, just whole numbers may not fit. -/
theorem not_unfit (laid : value.hasLayouts = true) (other : ∀ n, value ≠ .int n) :
    ¬Unfit host spec (.value value) fault := by
  intro unfit
  cases unfit with
  | whole => exact other _ rfl
  | unlaid _ none => cases laid.symm.trans none

theorem unfit_int : Unfit host spec (.value (.int n)) fault ↔
    ∃ layout, Layout.read "int" (some 'd') .right spec = .ok layout ∧ layout.Exceeds n fault := by
  constructor
  · intro unfit
    cases unfit with
    | whole read exceeds => exact ⟨_, read, exceeds⟩
    | unlaid _ none => cases none
  · rintro ⟨layout, read, exceeds⟩
    exact .whole read exceeds

theorem unfit_unlaid (asked : spec ≠ []) (none : value.hasLayouts = false) :
    Unfit host spec (.value value) fault ↔ fault = .unsupportedFormat value.qualifiedTypeName := by
  constructor
  · intro unfit
    cases unfit with
    | whole => cases none
    | unlaid => rfl
  · rintro rfl
    exact .unlaid asked none

theorem layOut_int_throws (asked : spec ≠ []) : Throws (layOut spec (.int n)) fault ↔
    ∃ layout, Layout.read "int" (some 'd') .right spec = .ok layout ∧ layout.Exceeds n fault := by
  have given : spec.isEmpty = false := by simpa using asked
  simp only [layOut, given, Bool.false_eq_true, if_false, Throws.bind, Throws.lift,
    Layout.ofWhole_throws, false_or]
  cases Layout.read "int" (some 'd') .right spec with
  | error reason => simp [lift]
  | ok layout => simp [lift]

theorem layOut_throws :
    Throws (layOut spec value) fault ↔ Unfit host spec (.value value) fault := by
  by_cases empty : spec = []
  · subst empty
    refine iff_of_false ?_ unfit_nil
    simp only [layOut, List.isEmpty_nil, if_true, Throws.bind, value.plain_keeps, false_or]
    rintro ⟨text, _, thrown⟩
    exact Throws.ok thrown
  have asked : spec.isEmpty = false := by simpa using empty
  cases value with
  | int n => exact (layOut_int_throws empty).trans unfit_int.symm
  | str s =>
      refine iff_of_false ?_ (not_unfit rfl nofun)
      simp only [layOut, asked, Bool.false_eq_true, if_false]
      exact Throws.lift
  | bool b =>
      refine iff_of_false ?_ (not_unfit rfl nofun)
      simp [layOut, asked, Throws.bind, Throws.lift, Layout.ofWhole_throws,
        Layout.not_exceeds_truth]
  | float x =>
      refine iff_of_false ?_ (not_unfit rfl nofun)
      simp [layOut, asked, Throws.bind, Throws.lift, Layout.ofBinary_keeps]
  | date d | datetime t =>
      refine iff_of_false ?_ (not_unfit rfl nofun)
      simp only [layOut, asked, Bool.false_eq_true, if_false]
      exact Throws.ok
  | _ =>
      rw [unfit_unlaid empty rfl]
      simp only [layOut, asked, Bool.false_eq_true, if_false]
      exact Throws.error rfl

end Values

theorem laidOut_throws {host : Host} {spec : List Char} {thing : Thing} {fault : Fault} :
    Throws (laidOut host spec thing) fault ↔ Unfit host spec thing fault := by
  cases thing with
  | value value => exact layOut_throws
  | object id =>
      constructor
      · exact .object
      · rintro ⟨⟩
        assumption

/-! ## Conversions -/

/-- An object of which the host makes no text for a conversion. -/
inductive Unconverted (host : Host) (id : Nat) : Char → Fault → Prop where
  | printed {c : Char} {fault : Fault} (asked : c = 'r' ∨ c = 'a')
      (raised : Throws (host.print id) fault) : Unconverted host id c fault
  | plain {fault : Fault} (raised : Throws (host.plain id) fault) : Unconverted host id 's' fault

/-- The conversion of a value lets no fault out. -/
theorem converted_keeps (host : Host) (value : Value) (conversion : Option Char) (fault : Fault) :
    ¬Throws (converted host (.value value) conversion) fault := by
  simp only [converted]
  split
  · exact Throws.ok
  · simp only [Throws.map, Host.printOf, value.print_keeps, not_false_eq_true]
  · simp only [Throws.map, Host.plainOf, value.plain_keeps, not_false_eq_true]
  · simp only [Throws.map, Host.printOf, value.print_keeps, not_false_eq_true]
  · exact Throws.kept rfl

theorem converted_object {host : Host} {id : Nat} {conversion : Option Char} {fault : Fault} :
    Throws (converted host (.object id) conversion) fault ↔
      ∃ c, conversion = some c ∧ Unconverted host id c fault := by
  simp only [converted]
  split
  · exact iff_of_false Throws.ok fun ⟨_, asked, _⟩ => nomatch asked
  · rw [Throws.map, Host.printOf]
    constructor
    · exact fun raised => ⟨_, rfl, .printed (.inl rfl) raised⟩
    · rintro ⟨c, asked, unconverted⟩
      cases unconverted with
      | printed _ raised => exact raised
      | plain => cases asked
  · rw [Throws.map, Host.plainOf]
    constructor
    · exact fun raised => ⟨_, rfl, .plain raised⟩
    · rintro ⟨c, asked, unconverted⟩
      obtain rfl := Option.some.inj asked
      cases unconverted with
      | printed other => exact absurd other (by decide)
      | plain raised => exact raised
  · rw [Throws.map, Host.printOf]
    constructor
    · exact fun raised => ⟨_, rfl, .printed (.inr rfl) raised⟩
    · rintro ⟨c, asked, unconverted⟩
      cases unconverted with
      | printed _ raised => exact raised
      | plain => cases asked
  · rename_i other notPrinted notPlain notAscii
    refine iff_of_false (Throws.kept rfl) ?_
    rintro ⟨c, asked, unconverted⟩
    obtain rfl := Option.some.inj asked
    cases unconverted with
    | printed asked => exact asked.elim notPrinted notAscii
    | plain => exact notPlain rfl

theorem converted_throws {host : Host} {thing : Thing} {conversion : Option Char} {fault : Fault} :
    Throws (converted host thing conversion) fault ↔ ∃ id c,
      thing = .object id ∧ conversion = some c ∧ Unconverted host id c fault := by
  cases thing with
  | value value =>
      refine iff_of_false (converted_keeps host value conversion fault) ?_
      exact fun ⟨_, _, same, _⟩ => nomatch same
  | object id =>
      rw [converted_object]
      constructor
      · rintro ⟨c, asked, unconverted⟩
        exact ⟨id, c, rfl, asked, unconverted⟩
      · rintro ⟨id', c, same, asked, unconverted⟩
        obtain rfl := Thing.object.inj same
        exact ⟨c, asked, unconverted⟩

/-! ## Fields -/

namespace Field

/-- What the name of a field stands for, before any way is taken from it. -/
def start (field : Field) (supply : Supply) : Outcome Value :=
  match field.root with
  | [] => .error (supply.placed 0)
  | name => do
    match ← lift (number? name) with
    | some index => .error (supply.placed index)
    | none => supply.named (String.ofList name)

/-- What a field inserts, before it is laid out. -/
def thing (field : Field) (supply : Supply) : Outcome Thing := do
  converted supply.host (← field.lookUp supply) field.conversion

/-- The layout of a field, with the fields in it filled in. -/
def layout (field : Field) (inner : List Char → Outcome (List Char)) : Outcome (List Char) :=
  if field.spec.contains '\x7b' then inner field.spec else .ok field.spec

/-- How a field lets a fault out: on a way from its name to what it inserts, in its conversion, in
its layout, or in the fields of its layout, which `inner` fills in and which let out what `inners`
says. -/
inductive Escape (supply : Supply) (inner : List Char → Outcome (List Char))
    (inners : List Char → Fault → Prop) (field : Field) : Fault → Prop where
  | way {fault : Fault} {start : Value} {reached : Thing} {before after : List Way} {way : Way}
      (named : field.start supply = .ok start) (ways : field.ways = before ++ way :: after)
      (walked : before.foldlM (follow supply.host) (.value start) = .ok reached)
      (blocked : Blocked supply.host reached way fault) : Escape supply inner inners field fault
  | conversion {fault : Fault} {id : Nat} {c : Char}
      (reached : field.lookUp supply = .ok (.object id)) (asked : field.conversion = some c)
      (unconverted : Unconverted supply.host id c fault) : Escape supply inner inners field fault
  | inner {fault : Fault} {thing : Thing} (inserted : field.thing supply = .ok thing)
      (nested : field.spec.contains '\x7b' = true) (escape : inners field.spec fault) :
      Escape supply inner inners field fault
  | layout {fault : Fault} {thing : Thing} {spec : List Char}
      (inserted : field.thing supply = .ok thing) (filled : field.layout inner = .ok spec)
      (unfit : Unfit supply.host spec thing fault) : Escape supply inner inners field fault

/-- The text that a field comes to. -/
def text (field : Field) (supply : Supply) (inner : List Char → Outcome (List Char)) :
    Outcome (List Char) := do
  let thing ← field.thing supply
  laidOut supply.host (← field.layout inner) thing

theorem lookUp_eq (field : Field) (supply : Supply) :
    field.lookUp supply = field.start supply >>= fun start =>
      field.ways.foldlM (follow supply.host) (.value start) := by
  simp only [lookUp, start]
  cases field.root with
  | nil => rfl
  | cons c rest =>
      cases read : number? (c :: rest) with
      | error reason => simp only [read, lift, Bind.bind, Except.bind]
      | ok index => cases index <;> simp only [read, lift, Bind.bind, Except.bind]

variable {supply : Supply} {field : Field} {fault : Fault}

theorem start_keeps (simple : supply.Simple) : ¬Throws (field.start supply) fault := by
  simp only [start]
  cases field.root with
  | nil => exact Throws.kept (simple.placed 0)
  | cons c rest =>
      simp only [Throws.bind, Throws.lift, false_or]
      rintro ⟨index, _, thrown⟩
      cases index with
      | some index => exact Throws.kept (simple.placed index) thrown
      | none => exact simple.named _ fault thrown

theorem lookUp_throws (simple : supply.Simple) :
    Throws (field.lookUp supply) fault ↔ ∃ start before way after reached,
      field.start supply = .ok start ∧ field.ways = before ++ way :: after ∧
        before.foldlM (follow supply.host) (.value start) = .ok reached ∧
          Blocked supply.host reached way fault := by
  simp only [lookUp_eq, Throws.bind, start_keeps simple, false_or]
  constructor
  · rintro ⟨start, named, thrown⟩
    obtain ⟨before, way, after, reached, ways, walked, blocked⟩ := Throws.foldlM.mp thrown
    have blocked := follow_throws.mp blocked
    exact ⟨start, before, way, after, reached, named, ways, walked, blocked⟩
  · rintro ⟨start, before, way, after, reached, named, ways, walked, blocked⟩
    have thrown := follow_throws.mpr blocked
    exact ⟨start, named, Throws.foldlM.mpr ⟨before, way, after, reached, ways, walked, thrown⟩⟩

theorem layout_throws {inner : List Char → Outcome (List Char)}
    {inners : List Char → Fault → Prop}
    (nested : ∀ cs fault, Throws (inner cs) fault ↔ inners cs fault) :
    Throws (field.layout inner) fault ↔
      field.spec.contains '\x7b' = true ∧ inners field.spec fault := by
  simp only [layout]
  split
  next holds => simp only [nested, holds, true_and]
  next plain => exact iff_of_false Throws.ok fun found => plain found.1

theorem text_throws (simple : supply.Simple) {inner : List Char → Outcome (List Char)}
    {inners : List Char → Fault → Prop}
    (nested : ∀ cs fault, Throws (inner cs) fault ↔ inners cs fault) :
    Throws (field.text supply inner) fault ↔ field.Escape supply inner inners fault := by
  have thingThrows : Throws (field.thing supply) fault ↔ Throws (field.lookUp supply) fault ∨
      ∃ reached, field.lookUp supply = .ok reached ∧
        Throws (converted supply.host reached field.conversion) fault := Throws.bind
  simp only [text, Throws.bind, thingThrows, lookUp_throws simple, converted_throws,
    layout_throws nested, laidOut_throws]
  -- The order of the disjuncts is that in which a field is evaluated.
  constructor
  · rintro ((⟨start, before, way, after, reached, named, ways, walked, blocked⟩ |
        ⟨reached, found, id, c, rfl, asked, unconverted⟩) |
      ⟨thing, inserted, ⟨holds, escape⟩ | ⟨spec, filled, unfit⟩⟩)
    · exact .way named ways walked blocked
    · exact .conversion found asked unconverted
    · exact .inner inserted holds escape
    · exact .layout inserted filled unfit
  · intro escape
    cases escape with
    | way named ways walked blocked =>
        exact .inl (.inl ⟨_, _, _, _, _, named, ways, walked, blocked⟩)
    | conversion reached asked unconverted =>
        exact .inl (.inr ⟨_, reached, _, _, rfl, asked, unconverted⟩)
    | inner inserted holds escape => exact .inr ⟨_, inserted, .inl ⟨holds, escape⟩⟩
    | layout inserted filled unfit => exact .inr ⟨_, inserted, .inr ⟨_, filled, unfit⟩⟩

end Field

/-! ## Templates -/

/-- The text that a piece comes to. -/
def Piece.text (supply : Supply) (inner : List Char → Outcome (List Char)) :
    Piece → Outcome (List Char)
  | .literal text => .ok text
  | .broken fault => .error (.template fault)
  | .field inserted => inserted.text supply inner

theorem fillPieces_cons (supply : Supply) (inner : List Char → Outcome (List Char)) (piece : Piece)
    (rest : List Piece) :
    fillPieces supply inner (piece :: rest) =
      piece.text supply inner >>= fun text => (fillPieces supply inner rest).map (text ++ ·) := by
  cases piece with
  | literal text => rfl
  | broken reason => rfl
  | field field =>
      simp only [fillPieces, Piece.text, Field.text, Field.thing, Field.layout, Bind.bind,
        Except.bind]
      cases field.lookUp supply with
      | error reason => rfl
      | ok found =>
          simp only
          cases converted supply.host found field.conversion with
          | error reason => rfl
          | ok thing =>
              simp only
              split
              · cases inner field.spec with
                | error reason => rfl
                | ok spec => cases laidOut supply.host spec thing <;> rfl
              · cases laidOut supply.host field.spec thing <;> rfl

/-- Where a template lets a fault out, layouts being filled in less than `depth` levels deep: at
one of its fields, the pieces before that being filled in. -/
def Escape (supply : Supply) : (depth : Nat) → List Char → Fault → Prop
  | 0, _, _ => False
  | depth + 1, cs, fault => ∃ before field after,
      piecesOf cs = before ++ .field field :: after ∧
        (∀ piece ∈ before, ∃ text, piece.text supply (fillWith supply depth) = .ok text) ∧
          field.Escape supply (fillWith supply depth) (Escape supply depth) fault

theorem fillPieces_throws {supply : Supply} {inner : List Char → Outcome (List Char)}
    {pieces : List Piece} {fault : Fault} :
    Throws (fillPieces supply inner pieces) fault ↔ ∃ before field after,
      pieces = before ++ .field field :: after ∧
        (∀ piece ∈ before, ∃ text, piece.text supply inner = .ok text) ∧
          Throws (field.text supply inner) fault := by
  induction pieces with
  | nil => exact iff_of_false Throws.ok fun ⟨before, field, after, split, _⟩ => by simp at split
  | cons piece rest ih =>
      rw [fillPieces_cons, Throws.bind]
      simp only [Throws.map, ih]
      constructor
      · rintro (thrown | ⟨text, filled, before, field, after, rfl, earlier, thrown⟩)
        · cases piece with
          | literal text => exact absurd thrown Throws.ok
          | broken reason => exact absurd thrown (Throws.kept rfl)
          | field field => exact ⟨[], field, rest, rfl, by simp, thrown⟩
        · exact ⟨piece :: before, field, after, rfl,
            List.forall_mem_cons.mpr ⟨⟨text, filled⟩, earlier⟩, thrown⟩
      · rintro ⟨before, field, after, split, earlier, thrown⟩
        cases before with
        | nil =>
            obtain ⟨rfl, rfl⟩ := List.cons.inj split
            exact .inl thrown
        | cons first before =>
            obtain ⟨rfl, rfl⟩ := List.cons.inj split
            obtain ⟨⟨text, filled⟩, earlier⟩ := List.forall_mem_cons.mp earlier
            exact .inr ⟨text, filled, before, field, after, rfl, earlier, thrown⟩

/-- A template lets out just the faults of its escapes. -/
theorem fillWith_throws {supply : Supply} (simple : supply.Simple) (depth : Nat) (cs : List Char)
    (fault : Fault) : Throws (fillWith supply depth cs) fault ↔ Escape supply depth cs fault := by
  induction depth generalizing cs fault with
  | zero => exact iff_of_false (Throws.kept rfl) id
  | succ depth ih => simp only [fillWith, fillPieces_throws, Field.text_throws simple ih, Escape]

theorem fill_throws {supply : Supply} (simple : supply.Simple) (template : String) (fault : Fault) :
    Throws (fill supply template) fault ↔ Escape supply 2 template.toList fault := by
  rw [fill, Throws.map, fillWith_throws simple]

end Template

end FieldRules
