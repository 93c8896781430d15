import FieldRules.Log.Detail
import FieldRules.Proofs.Json.Writing

/-! # Which details can be written in JSON

What JSON asks of values it asks of all objects: whole numbers of 64 bits, and texts as the keys of
dictionaries. An object of a class that is declared by its fields is written with what is its own,
so one number in it can make it unwritable; an object of another class has a printed form or not,
and nothing in it is looked at.
-/

namespace FieldRules

open Text Json

/-- An object that can be written in JSON. -/
inductive Detail.Writable : Detail → Prop where
  | value {v : Value} (writable : v.Writable) : Writable (.value v)
  | list {items : List Detail} (every : ∀ item ∈ items, Writable item) : Writable (.list items)
  | tuple {items : List Detail} (every : ∀ item ∈ items, Writable item) : Writable (.tuple items)
  | set {items : List Detail} {text : String} (printed : (Detail.set items).printed? = some text) :
      Writable (.set items)
  | dict {entries : List (Detail × Detail)} (keys : ∀ entry ∈ entries, ∃ key, entry.1 = .str key)
      (every : ∀ entry ∈ entries, Writable entry.2) : Writable (.dict entries)
  | fielded {text? : Option String} {attributes : List (String × Detail)}
      (every : ∀ entry ∈ attributes, isHidden entry.1 = false → Writable entry.2) :
      Writable (.fielded text? attributes)
  | object {typeName text : String} : Writable (.object typeName (some text))

namespace Detail

theorem foreignText_ok_iff {typeName : String} {text? : Option String} :
    (∃ text, foreignText typeName text? = .ok text) ↔ ∃ text, text? = some text := by
  cases text? <;> simp [foreignText]

theorem line_foreignText {typeName text : String} {text? : Option String}
    (written : foreignText typeName text? = .ok text) : IsLine text := by
  cases text? with
  | none => cases written
  | some printed =>
      obtain rfl := Except.ok.inj written
      exact line_stringText printed

theorem writeEntries_other {key : Detail} (other : ¬∃ name, key = .str name) {detail : Detail}
    {rest : List (Detail × Detail)} :
    writeEntries ((key, detail) :: rest) = .error .keyNotText := by
  rw [writeEntries]
  exact fun name same => other ⟨name, same⟩

mutual

theorem write_ok_iff {detail : Detail} : (∃ text, detail.write = .ok text) ↔ detail.Writable := by
  constructor
  · rintro ⟨text, written⟩
    cases detail with
    | value v => exact .value (Json.write_ok_iff.mp ⟨text, written⟩)
    | list items =>
        obtain ⟨texts, each, -⟩ := Outcome.bind_ok written
        exact .list (writeItems_ok_iff.mp ⟨texts, each⟩)
    | tuple items =>
        obtain ⟨texts, each, -⟩ := Outcome.bind_ok written
        exact .tuple (writeItems_ok_iff.mp ⟨texts, each⟩)
    | set items =>
        obtain ⟨printed, some⟩ := foreignText_ok_iff.mp ⟨text, written⟩
        exact .set some
    | dict entries =>
        obtain ⟨texts, each, -⟩ := Outcome.bind_ok written
        obtain ⟨keys, every⟩ := writeEntries_ok_iff.mp ⟨texts, each⟩
        exact .dict keys every
    | fielded text? attributes =>
        obtain ⟨texts, each, -⟩ := Outcome.bind_ok written
        exact .fielded (writeAttributes_ok_iff.mp ⟨texts, each⟩)
    | object typeName text? =>
        obtain ⟨printed, rfl⟩ := foreignText_ok_iff.mp ⟨text, written⟩
        exact .object
  · intro writable
    cases writable with
    | value writable => exact Json.write_ok_iff.mpr writable
    | list every =>
        obtain ⟨texts, each⟩ := writeItems_ok_iff.mpr every
        exact ⟨arrayText texts, by rw [write, each]; rfl⟩
    | tuple every =>
        obtain ⟨texts, each⟩ := writeItems_ok_iff.mpr every
        exact ⟨arrayText texts, by rw [write, each]; rfl⟩
    | set printed => exact foreignText_ok_iff.mpr ⟨_, printed⟩
    | dict keys every =>
        obtain ⟨texts, each⟩ := writeEntries_ok_iff.mpr ⟨keys, every⟩
        exact ⟨objectText texts, by rw [write, each]; rfl⟩
    | fielded every =>
        obtain ⟨texts, each⟩ := writeAttributes_ok_iff.mpr every
        exact ⟨objectText texts, by rw [write, each]; rfl⟩
    | object => exact ⟨_, rfl⟩

theorem writeItems_ok_iff {items : List Detail} :
    (∃ texts, writeItems items = .ok texts) ↔ ∀ item ∈ items, item.Writable := by
  cases items with
  | nil => exact ⟨fun _ => List.forall_mem_nil _, fun _ => ⟨[], rfl⟩⟩
  | cons item rest =>
      rw [List.forall_mem_cons, ← write_ok_iff, ← writeItems_ok_iff]
      exact Outcome.exists_cons

theorem writeEntries_ok_iff {entries : List (Detail × Detail)} :
    (∃ texts, writeEntries entries = .ok texts) ↔
      (∀ entry ∈ entries, ∃ key, entry.1 = .str key) ∧ ∀ entry ∈ entries, entry.2.Writable := by
  cases entries with
  | nil => exact ⟨fun _ => ⟨List.forall_mem_nil _, List.forall_mem_nil _⟩, fun _ => ⟨[], rfl⟩⟩
  | cons entry rest =>
      obtain ⟨key, detail⟩ := entry
      simp only [List.forall_mem_cons]
      by_cases text : ∃ name, key = .str name
      · obtain ⟨name, rfl⟩ := text
        have split := @Outcome.exists_cons _ _ (fun text => (name, text)) detail.write
          (writeEntries rest)
        rw [writeEntries, split, write_ok_iff, writeEntries_ok_iff]
        simp [and_left_comm]
      · simp [writeEntries_other text, text]

theorem writeAttributes_ok_iff {attributes : List (String × Detail)} :
    (∃ texts, writeAttributes attributes = .ok texts) ↔
      ∀ entry ∈ attributes, isHidden entry.1 = false → entry.2.Writable := by
  cases attributes with
  | nil => exact ⟨fun _ => List.forall_mem_nil _, fun _ => ⟨[], rfl⟩⟩
  | cons entry rest =>
      obtain ⟨name, detail⟩ := entry
      rw [List.forall_mem_cons, ← writeAttributes_ok_iff, ← write_ok_iff, writeAttributes]
      cases hidden : isHidden name with
      | true => simp
      | false =>
          have split := @Outcome.exists_cons _ _ (fun text => (name, text)) detail.write
            (writeAttributes rest)
          simpa using split

end

mutual

/-- What is written stands on one line. -/
theorem line_write {detail : Detail} {text : String} (written : detail.write = .ok text) :
    IsLine text := by
  cases detail with
  | value v => exact Json.line_write lines_printedString written
  | list items | tuple items =>
      obtain ⟨texts, each, same⟩ := Outcome.bind_ok written
      obtain rfl := Except.ok.inj same
      exact line_arrayText (line_writeItems each)
  | dict entries =>
      obtain ⟨texts, each, same⟩ := Outcome.bind_ok written
      obtain rfl := Except.ok.inj same
      exact line_objectText (line_writeEntries each)
  | fielded text? attributes =>
      obtain ⟨texts, each, same⟩ := Outcome.bind_ok written
      obtain rfl := Except.ok.inj same
      exact line_objectText (line_writeAttributes each)
  | set items | object typeName text? => exact line_foreignText written

theorem line_writeItems {items : List Detail} {texts : List String}
    (written : writeItems items = .ok texts) : ∀ text ∈ texts, IsLine text := by
  cases items with
  | nil =>
      obtain rfl := Except.ok.inj written
      exact List.forall_mem_nil _
  | cons item rest =>
      obtain ⟨text, first, more⟩ := Outcome.bind_ok written
      obtain ⟨others, later, same⟩ := Outcome.bind_ok more
      obtain rfl := Except.ok.inj same
      exact List.forall_mem_cons.mpr ⟨line_write first, line_writeItems later⟩

theorem line_writeEntries {entries : List (Detail × Detail)} {texts : List (String × String)}
    (written : writeEntries entries = .ok texts) : ∀ entry ∈ texts, IsLine entry.2 := by
  cases entries with
  | nil =>
      obtain rfl := Except.ok.inj written
      exact List.forall_mem_nil _
  | cons entry rest =>
      obtain ⟨key, detail⟩ := entry
      by_cases text : ∃ name, key = .str name
      · obtain ⟨name, rfl⟩ := text
        obtain ⟨text, first, more⟩ := Outcome.bind_ok written
        obtain ⟨others, later, same⟩ := Outcome.bind_ok more
        obtain rfl := Except.ok.inj same
        exact List.forall_mem_cons.mpr ⟨line_write first, line_writeEntries later⟩
      · cases (writeEntries_other text).symm.trans written

theorem line_writeAttributes {attributes : List (String × Detail)}
    {texts : List (String × String)} (written : writeAttributes attributes = .ok texts) :
    ∀ entry ∈ texts, IsLine entry.2 := by
  cases attributes with
  | nil =>
      obtain rfl := Except.ok.inj written
      exact List.forall_mem_nil _
  | cons entry rest =>
      obtain ⟨name, detail⟩ := entry
      rw [writeAttributes] at written
      split at written
      · exact line_writeAttributes written
      · obtain ⟨text, first, more⟩ := Outcome.bind_ok written
        obtain ⟨others, later, same⟩ := Outcome.bind_ok more
        obtain rfl := Except.ok.inj same
        exact List.forall_mem_cons.mpr ⟨line_write first, line_writeAttributes later⟩

end

end Detail

/-! ## Rules -/

/-- Whether a rule can be written on which some attributes have been set. If its class is declared
    by fields, these have to be writable, and of what has been set the codes of its last check;
    otherwise the rule has to have a printed form. -/
def Rule.Writable (assigned : List RuleAttribute) (rule : Rule) : Prop :=
  match rule.kind.fields? with
  | some fields => (∀ field ∈ fields, field.2.Writable) ∧
      (.violations ∈ assigned → ∀ code ∈ rule.violations, code.Writable)
  | none => ∃ text, rule.kind.print = .ok text

end FieldRules
