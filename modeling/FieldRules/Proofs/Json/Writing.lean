import FieldRules.Json.Writer
import FieldRules.Proofs.Number.Nearest
import FieldRules.Proofs.Text.Pieces
import Mathlib.Algebra.Group.Int.Defs

/-! # What can be written in JSON

A value can be written if the whole numbers in it fit 64 bits and the keys of its dictionaries are
texts. What is inside a set is not looked at, since a set is written in its printed form; this is
there unless a number in it has too many digits. Whatever is written stands on one line.
-/

namespace FieldRules

open Text Number

/-- A list that is made step by step is there if its first item and the others are. -/
theorem Outcome.exists_cons {α β : Type} {f : α → β} {first : Outcome α}
    {others : Outcome (List β)} :
    (∃ bs, (do let a ← first; return f a :: (← others)) = .ok bs) ↔
      (∃ a, first = .ok a) ∧ ∃ bs, others = .ok bs := by
  constructor
  · rintro ⟨bs, made⟩
    obtain ⟨a, here, more⟩ := Outcome.bind_ok made
    obtain ⟨rest, later, -⟩ := Outcome.bind_ok more
    exact ⟨⟨a, here⟩, rest, later⟩
  · rintro ⟨⟨a, rfl⟩, rest, rfl⟩
    exact ⟨f a :: rest, rfl⟩

/-- A value that can be written in JSON, where the others are written in their printed form. -/
inductive Value.Writable : Value → Prop where
  | none : Writable .none
  | bool (b : Bool) : Writable (.bool b)
  | int {n : Int} (least : -(2 ^ 63) ≤ n) (most : n < 2 ^ 64) : Writable (.int n)
  | float (x : Binary64) : Writable (.float x)
  | str (s : String) : Writable (.str s)
  | list {items : List Value} (every : ∀ item ∈ items, Writable item) : Writable (.list items)
  | tuple {items : List Value} (every : ∀ item ∈ items, Writable item) : Writable (.tuple items)
  | set {items : List Value} {text : String} (printed : (Value.set items).printed? = some text) :
      Writable (.set items)
  | dict {entries : List (Value × Value)} (keys : ∀ entry ∈ entries, ∃ key, entry.1 = .str key)
      (every : ∀ entry ∈ entries, Writable entry.2) : Writable (.dict entries)
  | bytes (octets : List UInt8) : Writable (.bytes octets)
  | date (d : Calendar.Date) : Writable (.date d)
  | datetime (t : Calendar.DateTime) : Writable (.datetime t)
  | missing : Writable .missing

/-! ## Lines -/

namespace Text

/-- A text without line breaks. -/
def IsLine (s : String) : Prop := '\n' ∉ s.toList

instance (s : String) : Decidable (IsLine s) := inferInstanceAs (Decidable ('\n' ∉ s.toList))

theorem isLine_append {s t : String} : IsLine (s ++ t) ↔ IsLine s ∧ IsLine t := by
  simp [IsLine, String.toList_append, not_or]

theorem IsLine.ofList {cs : List Char} (clear : '\n' ∉ cs) : IsLine (String.ofList cs) := by
  rwa [IsLine, String.toList_ofList]

theorem isLine_joinWith {separator : String} (line : IsLine separator) {parts : List String}
    (lines : ∀ part ∈ parts, IsLine part) : IsLine (joinWith separator parts) := by
  induction parts with
  | nil => exact List.not_mem_nil
  | cons first rest ih =>
      obtain ⟨here, others⟩ := List.forall_mem_cons.mp lines
      cases rest with
      | nil => exact here
      | cons second rest => exact isLine_append.mpr ⟨isLine_append.mpr ⟨here, line⟩, ih others⟩

end Text

namespace Number

theorem line_digits (n : Nat) : '\n' ∉ Nat.toDigits 10 n := fun inside =>
  absurd (toDigits_digits n _ inside) (by decide)

theorem line_toString (n : Int) : IsLine (toString n) := by
  intro inside
  rcases toString_plain n _ inside with sign | digit
  · exact absurd sign (by decide)
  · exact absurd digit (by decide)

namespace Layout

variable {digits : List Char}

theorem line_positional (line : '\n' ∉ digits) (whole : Int) : '\n' ∉ positional digits whole := by
  have front (count : Nat) : '\n' ∉ digits.take count := fun inside =>
    line (List.mem_of_mem_take inside)
  have back (count : Nat) : '\n' ∉ digits.drop count := fun inside =>
    line (List.mem_of_mem_drop inside)
  unfold positional
  split
  · simp [line]
  · dsimp only
    split
    · simp [line]
    · simp [front, back]

theorem line_scientific (layout : Layout) (line : '\n' ∉ digits) (whole : Int) :
    '\n' ∉ layout.scientific digits whole := by
  have exponent : '\n' ∉ layout.exponentText (whole - 1) := by
    unfold exponentText zeroPadded
    dsimp only
    split
    · simp [line_digits]
    · split <;> simp [line_digits]
  unfold scientific
  dsimp only
  split
  · next first second rest => simpa [exponent] using line
  · simp [exponent, line]

theorem line_magnitudeText (layout : Layout) (m : Magnitude) : '\n' ∉ layout.magnitudeText m := by
  unfold magnitudeText
  split
  · decide
  · dsimp only
    split
    · exact line_scientific layout (line_digits _) _
    · exact line_positional (line_digits _) _

end Layout

end Number

namespace Json

theorem line_numberText (x : Binary64) : IsLine (numberText x) := by
  cases x with
  | finite negative m =>
      refine .ofList ?_
      have magnitude := Layout.line_magnitudeText numberLayout m
      cases negative <;> simp [magnitude]
  | nan | infinite => exact show IsLine "null" by decide

theorem line_hexDigits (width n : Nat) : '\n' ∉ hexDigits width n := by
  induction width generalizing n with
  | zero => exact List.not_mem_nil
  | succ width ih =>
      have every : ∀ digit < 16, hexDigit digit ≠ '\n' := by decide
      have last := every (n % 16) (Nat.mod_lt n (by decide))
      simp [hexDigits, ih, last.symm]

theorem line_escapedChar (c : Char) : '\n' ∉ escapedChar c := by
  by_cases line : c = '\n'
  · subst line
    decide
  · have other : '\n' ≠ c := Ne.symm line
    unfold escapedChar
    -- A character stands for itself behind a backslash or alone; others have letters or numbers.
    repeat' split
    all_goals simp_all [line_hexDigits]

theorem line_stringText (s : String) : IsLine (stringText s) := by
  refine .ofList ?_
  simp [line_escapedChar]

theorem line_arrayText {items : List String} (lines : ∀ item ∈ items, IsLine item) :
    IsLine (arrayText items) :=
  isLine_append.mpr ⟨isLine_append.mpr ⟨by decide, isLine_joinWith (by decide) lines⟩, by decide⟩

theorem line_objectText {entries : List (String × String)}
    (lines : ∀ entry ∈ entries, IsLine entry.2) : IsLine (objectText entries) := by
  have parts : ∀ part ∈ entries.map fun entry => stringText entry.1 ++ ":" ++ entry.2,
      IsLine part := by
    refine List.forall_mem_map.mpr fun entry member => ?_
    exact isLine_append.mpr
      ⟨isLine_append.mpr ⟨line_stringText _, by decide⟩, lines entry member⟩
  exact isLine_append.mpr ⟨isLine_append.mpr ⟨by decide, isLine_joinWith (by decide) parts⟩,
    by decide⟩

/-! ## Values -/

/-- Whether the values that JSON does not know are written on one line. -/
def Lines (foreign : Value → Outcome String) : Prop :=
  ∀ value text, foreign value = .ok text → IsLine text

variable {foreign : Value → Outcome String}

mutual

/-- A value is written on one line if those that JSON does not know are. -/
theorem line_write (lines : Lines foreign) {value : Value} {text : String}
    (written : write foreign value = .ok text) : IsLine text := by
  cases value with
  | none =>
      obtain rfl := Except.ok.inj written
      decide
  | bool b =>
      obtain rfl := Except.ok.inj written
      cases b <;> decide
  | int n =>
      rw [write] at written
      split at written
      · obtain rfl := Except.ok.inj written
        exact line_toString n
      · cases written
  | float x =>
      obtain rfl := Except.ok.inj written
      exact line_numberText x
  | str s | date s | datetime s =>
      obtain rfl := Except.ok.inj written
      exact line_stringText _
  | list items | tuple items =>
      obtain ⟨texts, each, same⟩ := Outcome.bind_ok written
      obtain rfl := Except.ok.inj same
      exact line_arrayText (line_writeItems lines each)
  | dict entries =>
      obtain ⟨texts, each, same⟩ := Outcome.bind_ok written
      obtain rfl := Except.ok.inj same
      exact line_objectText (line_writeEntries lines each)
  | set | bytes | missing => exact lines _ _ written

theorem line_writeItems (lines : Lines foreign) {items : List Value} {texts : List String}
    (written : writeItems foreign items = .ok texts) : ∀ text ∈ texts, IsLine text := by
  cases items with
  | nil =>
      obtain rfl := Except.ok.inj written
      exact List.forall_mem_nil _
  | cons item rest =>
      obtain ⟨text, first, more⟩ := Outcome.bind_ok written
      obtain ⟨others, later, same⟩ := Outcome.bind_ok more
      obtain rfl := Except.ok.inj same
      exact List.forall_mem_cons.mpr ⟨line_write lines first, line_writeItems lines later⟩

theorem line_writeEntries (lines : Lines foreign) {entries : List (Value × Value)}
    {texts : List (String × String)} (written : writeEntries foreign entries = .ok texts) :
    ∀ entry ∈ texts, IsLine entry.2 := by
  cases entries with
  | nil =>
      obtain rfl := Except.ok.inj written
      exact List.forall_mem_nil _
  | cons entry rest =>
      obtain ⟨key, value⟩ := entry
      cases key with
      | str name =>
          obtain ⟨text, first, more⟩ := Outcome.bind_ok written
          obtain ⟨others, later, same⟩ := Outcome.bind_ok more
          obtain rfl := Except.ok.inj same
          exact List.forall_mem_cons.mpr ⟨line_write lines first, line_writeEntries lines later⟩
      | _ => cases written

end

theorem lines_printedString : Lines printedString := by
  intro value text written
  rw [printedString] at written
  split at written
  · obtain rfl := Except.ok.inj written
    exact line_stringText _
  · cases written

theorem isWithin64_iff {n : Int} : isWithin64 n = true ↔ -(2 ^ 63) ≤ n ∧ n < 2 ^ 64 := by
  have small : (twoTo 63 : Int) = 2 ^ 63 := by decide
  have great : (twoTo 64 : Int) = 2 ^ 64 := by decide
  simp [isWithin64, small, great]

mutual

theorem write_ok_iff {value : Value} :
    (∃ text, write printedString value = .ok text) ↔ value.Writable := by
  constructor
  · rintro ⟨text, written⟩
    cases value with
    | none => exact .none
    | bool b => exact .bool b
    | int n =>
        rw [write] at written
        split at written
        · next within =>
            obtain ⟨least, most⟩ := isWithin64_iff.mp within
            exact .int least most
        · cases written
    | float x => exact .float x
    | str s => exact .str s
    | list items =>
        obtain ⟨texts, each, -⟩ := Outcome.bind_ok written
        exact .list (writeItems_ok_iff.mp ⟨texts, each⟩)
    | tuple items =>
        obtain ⟨texts, each, -⟩ := Outcome.bind_ok written
        exact .tuple (writeItems_ok_iff.mp ⟨texts, each⟩)
    | set items =>
        rw [write, printedString] at written
        split at written
        · next printed => exact .set printed
        · cases written
    | dict entries =>
        obtain ⟨texts, each, -⟩ := Outcome.bind_ok written
        obtain ⟨keys, every⟩ := writeEntries_ok_iff.mp ⟨texts, each⟩
        exact .dict keys every
    | bytes octets => exact .bytes octets
    | date d => exact .date d
    | datetime t => exact .datetime t
    | missing => exact .missing
  · intro writable
    cases writable with
    | int least most => exact ⟨_, if_pos (isWithin64_iff.mpr ⟨least, most⟩)⟩
    | list every =>
        obtain ⟨texts, each⟩ := writeItems_ok_iff.mpr every
        exact ⟨arrayText texts, by rw [write, each]; rfl⟩
    | tuple every =>
        obtain ⟨texts, each⟩ := writeItems_ok_iff.mpr every
        exact ⟨arrayText texts, by rw [write, each]; rfl⟩
    | dict keys every =>
        obtain ⟨texts, each⟩ := writeEntries_ok_iff.mpr ⟨keys, every⟩
        exact ⟨objectText texts, by rw [write, each]; rfl⟩
    | set printed => exact ⟨_, by rw [write, printedString, printed]⟩
    | _ => exact ⟨_, rfl⟩

theorem writeItems_ok_iff {items : List Value} :
    (∃ texts, writeItems printedString items = .ok texts) ↔ ∀ item ∈ items, item.Writable := by
  cases items with
  | nil => exact ⟨fun _ => List.forall_mem_nil _, fun _ => ⟨[], rfl⟩⟩
  | cons item rest =>
      rw [List.forall_mem_cons, ← write_ok_iff, ← writeItems_ok_iff]
      exact Outcome.exists_cons

theorem writeEntries_ok_iff {entries : List (Value × Value)} :
    (∃ texts, writeEntries printedString entries = .ok texts) ↔
      (∀ entry ∈ entries, ∃ key, entry.1 = .str key) ∧ ∀ entry ∈ entries, entry.2.Writable := by
  cases entries with
  | nil => exact ⟨fun _ => ⟨List.forall_mem_nil _, List.forall_mem_nil _⟩, fun _ => ⟨[], rfl⟩⟩
  | cons entry rest =>
      obtain ⟨key, value⟩ := entry
      simp only [List.forall_mem_cons]
      cases key with
      | str name =>
          have split := @Outcome.exists_cons _ _ (fun text => (name, text))
            (write printedString value) (writeEntries printedString rest)
          rw [writeEntries, split, write_ok_iff, writeEntries_ok_iff]
          simp [and_left_comm]
      | _ => simp [writeEntries]

end

end Json

end FieldRules
