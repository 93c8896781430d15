import FieldRules.Proofs.Registry.Grammar
import FieldRules.Proofs.Validation.Encounters

/-! # What sheets of rules come to

The rules of an attribute are a rule string, a rule or a function of the value, or a list or a tuple
of rules and functions; nothing else is accepted, and nothing else inside a sequence. A sheet comes
to a table with the same attributes in the same order just if the rules of all of them are accepted,
and otherwise the first attribute whose rules are not decides what the fault is. Making a table only
adds to a workspace. So whether rules are accepted, and why they are not, can be said of the
workspace that was there at first, however many rule strings were read on the way.
-/

namespace FieldRules

variable {w w' w'' : Workspace} {fault : Fault}

theorem Outcome.agree {α β : Type} {outcome : Outcome α} {other : Outcome β}
    (same : ∀ fault, outcome = .error fault ↔ other = .error fault) :
    (∃ fault, outcome = .error fault ∧ other = .error fault) ∨
      ∃ a b, outcome = .ok a ∧ other = .ok b := by
  cases outcome with
  | error fault => exact .inl ⟨fault, rfl, (same fault).mp rfl⟩
  | ok a =>
      cases other with
      | error fault => cases (same fault).mpr rfl
      | ok b => exact .inr ⟨a, b, rfl, rfl⟩

theorem Outcome.mapM_accepts {α β : Type} {step : α → Outcome β} {as : List α} :
    (∃ bs, as.mapM step = .ok bs) ↔ ∀ a ∈ as, ∃ b, step a = .ok b := by
  simp only [Outcome.mapM_eq_ok]
  induction as with
  | nil => simp
  | cons a rest ih =>
      rw [List.forall_mem_cons, ← ih]
      simp only [List.forall₂_cons_left_iff]
      constructor
      · rintro ⟨_, b, bs, done, others, rfl⟩
        exact ⟨⟨b, done⟩, bs, others⟩
      · rintro ⟨⟨b, done⟩, bs, others⟩
        exact ⟨_, b, bs, done, others, rfl⟩

theorem Task.andThen_fault {α β : Type} {task : Task α} {f : α → β} :
    ((do let a ← task; pure (f a)) w).1 = .error fault ↔ (task w).1 = .error fault := by
  rw [Task.bind_eq]
  rcases task w with ⟨_ | a, w'⟩ <;> simp [Task.pure_eq]

namespace Written

/-- The entry that a rule is, or a function of the value; nothing else is one. -/
def entry? : Written → Option TableEntry
  | rule id => some (.bound id)
  | callable c => some (.callable c)
  | ofClass _ | value _ | list _ | tuple _ => none

/-- The elements of a list or a tuple. -/
def elements? : Written → Option (List Written)
  | list items | tuple items => some items
  | value (.list items) | value (.tuple items) => some (items.map value)
  | _ => none

/-- The forms in which the rules of an attribute may be written. -/
inductive Accepted (w : Workspace) : Written → Prop where
  | string {spec : String} {ids : List RuleId} (parsed : (Registry.parse spec w).1 = .ok ids) :
      Accepted w (value (.str spec))
  | single {written : Written} {entry : TableEntry} (own : written.entry? = some entry) :
      Accepted w written
  | sequence {written : Written} {items : List Written} (elements : written.elements? = some items)
      (entries : ∀ item ∈ items, ∃ entry, item.entry? = some entry) : Accepted w written

/-- What is written has become these entries, between two workspaces: one entry for each token of a
    rule string, bound to the rule that the token gives, or the very rules and functions that are
    written. -/
inductive Becomes (w w' : Workspace) : Written → List TableEntry → Prop where
  | string {spec : String} {read : List Token} {ids : List RuleId}
      (meaning : w.registry.reading spec = .ok read)
      (made : List.Forall₂ (Token.Gives w.rules w'.rules) read ids) :
      Becomes w w' (value (.str spec)) (ids.map .bound)
  | single {written : Written} {entry : TableEntry} (own : written.entry? = some entry) :
      Becomes w w' written [entry]
  | sequence {written : Written} {items : List Written} {entries : List TableEntry}
      (elements : written.elements? = some items)
      (own : List.Forall₂ (fun item entry => item.entry? = some entry) items entries) :
      Becomes w w' written entries

/-- Why what is written is refused. A rule string is refused for its leftmost piece that cannot be
    read, and if all can be read, for the leftmost token whose rule cannot be made; a sequence for
    its first element that is no entry. -/
inductive Refused (w : Workspace) : Written → Fault → Prop where
  | unread {spec : String} {before : List (List Char)} {piece : List Char}
      {behind : List (List Char)} {fault : Fault} (unkept : w.registry.cache.get? spec = none)
      (pieces : Text.Separated '|' spec.toList (before ++ piece :: behind))
      (earlier : ∀ other ∈ before, ∃ token, Token.Denotes w.registry.entries other token)
      (offends : Token.Offends w.registry.entries spec before.length piece fault) :
      Refused w (value (.str spec)) fault
  | unmade {spec : String} {before : List Token} {token : Token} {behind : List Token}
      {fault : Fault} (meaning : w.registry.reading spec = .ok (before ++ token :: behind))
      (earlier : ∀ other ∈ before, ∃ made, other.made = .ok made)
      (failed : token.made = .error fault) : Refused w (value (.str spec)) fault
  | element {written : Written} {before : List Written} {item : Written} {behind : List Written}
      (elements : written.elements? = some (before ++ item :: behind))
      (earlier : ∀ other ∈ before, ∃ entry, other.entry? = some entry)
      (none : item.entry? = none) :
      Refused w written (.invalidRule (.notCallable (item.typeName w.rules)))
  | other {written : Written} (noString : ∀ spec, written ≠ value (.str spec))
      (noSequence : written.elements? = none) (none : written.entry? = none) :
      Refused w written (.invalidRule (.notCallable (written.typeName w.rules)))

end Written

/-! ## Entries -/

namespace TableEntry

theorem ofWritten_eq (rules : RuleStore) (written : Written) :
    ofWritten rules written =
      match written.entry? with
      | some entry => .ok entry
      | none => .error (.invalidRule (.notCallable (written.typeName rules))) := by
  cases written <;> rfl

theorem ofWritten_eq_ok {rules : RuleStore} {written : Written} {entry : TableEntry} :
    ofWritten rules written = .ok entry ↔ written.entry? = some entry := by
  rw [ofWritten_eq]
  cases written.entry? <;> simp

theorem ofWritten_eq_error {rules : RuleStore} {written : Written} :
    ofWritten rules written = .error fault ↔
      written.entry? = none ∧ fault = .invalidRule (.notCallable (written.typeName rules)) := by
  rw [ofWritten_eq]
  cases written.entry? <;> simp [eq_comm]

theorem ofSequence_eq (rules : RuleStore) (items : List Written) :
    ofSequence rules items = items.mapM (ofWritten rules) := by
  induction items with
  | nil => rfl
  | cons item rest ih => rw [ofSequence, List.mapM_cons, ih]

theorem ofSequence_eq_ok {rules : RuleStore} {items : List Written} {entries : List TableEntry} :
    ofSequence rules items = .ok entries ↔
      List.Forall₂ (fun item entry => item.entry? = some entry) items entries := by
  simp only [ofSequence_eq, Outcome.mapM_eq_ok, ofWritten_eq_ok]

theorem ofSequence_accepts {rules : RuleStore} {items : List Written} :
    (∃ entries, ofSequence rules items = .ok entries) ↔
      ∀ item ∈ items, ∃ entry, item.entry? = some entry := by
  simp only [ofSequence_eq, Outcome.mapM_accepts, ofWritten_eq_ok]

theorem ofSequence_eq_error {rules : RuleStore} {items : List Written} :
    ofSequence rules items = .error fault ↔
      ∃ before item behind, items = before ++ item :: behind ∧
        (∀ other ∈ before, ∃ entry, other.entry? = some entry) ∧ item.entry? = none ∧
        fault = .invalidRule (.notCallable (item.typeName rules)) := by
  simp only [ofSequence_eq, Outcome.mapM_fault, ofWritten_eq_ok, ofWritten_eq_error]

end TableEntry

/-! ## Attributes -/

namespace Written

/-- What may be written is a rule string, or a list or a tuple, or neither of these. -/
inductive Form : Written → Prop where
  | string (spec : String) : Form (value (.str spec))
  | sequence {written : Written} {items : List Written}
      (elements : written.elements? = some items) : Form written
  | single {written : Written} (noString : ∀ spec, written ≠ value (.str spec))
      (noSequence : written.elements? = none) : Form written

theorem form (written : Written) : written.Form := by
  cases elements : written.elements? with
  | some items => exact .sequence elements
  | none =>
      by_cases string : ∃ spec, written = value (.str spec)
      · obtain ⟨spec, rfl⟩ := string
        exact .string spec
      · exact .single (fun spec same => string ⟨spec, same⟩) elements

end Written

/-- A rule string that cannot be read is not kept, and its leftmost malformed piece decides. -/
theorem Registry.reading_eq_error {registry : Registry} {spec : String} :
    registry.reading spec = .error fault ↔
      registry.cache.get? spec = none ∧
        ∃ before piece behind, Text.Separated '|' spec.toList (before ++ piece :: behind) ∧
          (∀ other ∈ before, ∃ token, Token.Denotes registry.entries other token) ∧
          Token.Offends registry.entries spec before.length piece fault := by
  rw [reading]
  cases registry.cache.get? spec with
  | some kept => simp
  | none =>
      simp only [tokenize, Token.readAll_offends, Nat.zero_add, true_and]
      constructor
      · rintro ⟨before, piece, behind, split, rest⟩
        exact ⟨before, piece, behind, Text.separated_iff.mpr split.symm, rest⟩
      · rintro ⟨before, piece, behind, separated, rest⟩
        exact ⟨before, piece, behind, (Text.separated_iff.mp separated).symm, rest⟩

namespace RuleTable

section Forms

variable {written : Written} {items : List Written}

theorem attributeEntries_sequence (elements : written.elements? = some items) (w : Workspace) :
    attributeEntries written w = (TableEntry.ofSequence w.rules items, w) := by
  cases written with
  | list | tuple =>
      cases elements
      rfl
  | value v =>
      cases v with
      | list | tuple =>
          cases elements
          rfl
      | _ => cases elements
  | _ => cases elements

theorem attributeEntries_single (noString : ∀ spec, written ≠ .value (.str spec))
    (noSequence : written.elements? = none) (w : Workspace) :
    attributeEntries written w = ((TableEntry.ofWritten w.rules written).map ([·]), w) := by
  rw [Written.attributeEntries_listed noString]
  cases written with
  | list | tuple => cases noSequence
  | value v =>
      cases v with
      | list | tuple => cases noSequence
      | _ => rfl
  | _ => rfl

theorem attributeEntries_string_fault {spec : String} :
    (attributeEntries (.value (.str spec)) w).1 = .error fault ↔
      (Registry.parse spec w).1 = .error fault := by
  rw [attributeEntries_str]
  cases (Registry.parse spec w).1 <;> simp [Except.map]

theorem attributeEntries_grown (written : Written) (w : Workspace) :
    w.GrownIn (attributeEntries written w).2 := by
  cases written.form with
  | string spec =>
      rw [attributeEntries_str]
      exact Registry.parse_grown spec w
  | sequence elements =>
      rw [attributeEntries_sequence elements]
      exact .refl w
  | single noString noSequence =>
      rw [attributeEntries_single noString noSequence]
      exact .refl w

/-- A fault over what is written is the same later on, unless more is registered. -/
theorem attributeEntries_fault_grown (grown : w.GrownIn w') (written : Written) :
    (attributeEntries written w').1 = .error fault ↔
      (attributeEntries written w).1 = .error fault := by
  cases written.form with
  | string spec => simp only [attributeEntries_string_fault, Registry.parse_fault_iff, grown.reading]
  | sequence elements =>
      simp only [attributeEntries_sequence elements, TableEntry.ofSequence_rules w.rules w'.rules]
  | single noString noSequence =>
      simp only [attributeEntries_single noString noSequence,
        TableEntry.ofWritten_rules w.rules w'.rules]

theorem refused_string {spec : String} :
    (Registry.parse spec w).1 = .error fault ↔ Written.Refused w (.value (.str spec)) fault := by
  rw [Registry.parse_fault_iff, Registry.reading_eq_error]
  constructor
  · rintro (⟨unkept, before, piece, behind, pieces, earlier, offends⟩ | ⟨read, meaning, unmade⟩)
    · exact .unread unkept pieces earlier offends
    · obtain ⟨before, token, behind, rfl, earlier, failed⟩ := Outcome.mapM_fault.mp unmade
      exact .unmade meaning earlier failed
  · intro refused
    cases refused with
    | unread unkept pieces earlier offends =>
        exact .inl ⟨unkept, _, _, _, pieces, earlier, offends⟩
    | unmade meaning earlier failed =>
        exact .inr ⟨_, meaning, Outcome.mapM_fault.mpr ⟨_, _, _, rfl, earlier, failed⟩⟩
    | element elements => cases elements
    | other noString => exact absurd rfl (noString spec)

theorem refused_sequence (elements : written.elements? = some items) :
    TableEntry.ofSequence w.rules items = .error fault ↔ written.Refused w fault := by
  rw [TableEntry.ofSequence_eq_error]
  constructor
  · rintro ⟨before, item, behind, rfl, earlier, none, rfl⟩
    exact .element elements earlier none
  · intro refused
    cases refused with
    | unread | unmade => cases elements
    | element own earlier none =>
        obtain rfl := Option.some.inj (elements.symm.trans own)
        exact ⟨_, _, _, rfl, earlier, none, rfl⟩
    | other _ noSequence => simp [elements] at noSequence

theorem refused_single (noString : ∀ spec, written ≠ .value (.str spec))
    (noSequence : written.elements? = none) :
    TableEntry.ofWritten w.rules written = .error fault ↔ written.Refused w fault := by
  rw [TableEntry.ofWritten_eq_error]
  constructor
  · rintro ⟨none, rfl⟩
    exact .other noString noSequence none
  · intro refused
    cases refused with
    | unread | unmade => exact absurd rfl (noString _)
    | element own => simp [noSequence] at own
    | other _ _ none => exact ⟨none, rfl⟩

/-- What is written is refused for one reason. -/
theorem attributeEntries_refused :
    (attributeEntries written w).1 = .error fault ↔ written.Refused w fault := by
  cases written.form with
  | string spec => exact attributeEntries_string_fault.trans refused_string
  | sequence elements =>
      rw [attributeEntries_sequence elements]
      exact refused_sequence elements
  | single noString noSequence =>
      rw [attributeEntries_single noString noSequence, ← refused_single noString noSequence]
      cases TableEntry.ofWritten w.rules written <;> simp [Except.map]

theorem attributeEntries_accepted :
    (∃ entries, (attributeEntries written w).1 = .ok entries) ↔ written.Accepted w := by
  constructor
  · rintro ⟨entries, given⟩
    cases written.form with
    | string spec =>
        rw [attributeEntries_str] at given
        obtain ⟨ids, parsed, -⟩ := Outcome.map_ok given
        exact .string parsed
    | sequence elements =>
        rw [attributeEntries_sequence elements] at given
        exact .sequence elements (TableEntry.ofSequence_accepts.mp ⟨entries, given⟩)
    | single noString noSequence =>
        rw [attributeEntries_single noString noSequence] at given
        obtain ⟨entry, own, -⟩ := Outcome.map_ok given
        exact .single (TableEntry.ofWritten_eq_ok.mp own)
  · intro accepted
    cases accepted with
    | string parsed =>
        rw [attributeEntries_str]
        exact ⟨_, congrArg (Except.map _) parsed⟩
    | sequence elements entries =>
        rw [attributeEntries_sequence elements]
        exact TableEntry.ofSequence_accepts.mpr entries
    | single own =>
        cases written with
        | rule | callable => exact ⟨_, rfl⟩
        | _ => cases own

theorem attributeEntries_becomes {entries : List TableEntry} {between : Workspace}
    (grown : w.GrownIn between) (ran : attributeEntries written between = (.ok entries, w'))
    (later : w'.GrownIn w'') : written.Becomes w w'' entries := by
  cases written.form with
  | string spec =>
      rw [attributeEntries_str] at ran
      rcases parsed : Registry.parse spec between with ⟨fault | ids, after⟩
      · rw [parsed] at ran
        cases ran
      · rw [parsed] at ran
        cases ran
        obtain ⟨read, meaning, made⟩ := Registry.parse_gives parsed grown.rules later.rules
        rw [grown.reading] at meaning
        exact .string meaning made
  | sequence elements =>
      rw [attributeEntries_sequence elements] at ran
      exact .sequence elements (TableEntry.ofSequence_eq_ok.mp (Prod.mk.inj ran).1)
  | single noString noSequence =>
      rw [attributeEntries_single noString noSequence] at ran
      obtain ⟨entry, own, rfl⟩ := Outcome.map_ok (Prod.mk.inj ran).1
      exact .single (TableEntry.ofWritten_eq_ok.mp own)

end Forms

/-! ## Sheets -/

theorem ofEntries_grown (rows : Keyed Written) (w : Workspace) :
    w.GrownIn (ofEntries rows w).2 := by
  induction rows generalizing w with
  | nil => exact .refl w
  | cons row rest ih =>
      obtain ⟨name, written⟩ := row
      have first := attributeEntries_grown written w
      simp only [ofEntries, Task.bind_eq]
      rcases ran : attributeEntries written w with ⟨fault | entries, between⟩
      · rw [ran] at first
        exact first
      · rw [ran] at first
        have others := ih between
        simp only
        rcases later : ofEntries rest between with ⟨fault | table, w'⟩
        · rw [later] at others
          exact first.trans others
        · rw [later] at others
          exact first.trans others

/-- Rows come to a fault as their rules do one by one, all in the workspace that was there first. -/
theorem ofEntries_fault (grown : w.GrownIn w') {rows : Keyed Written} :
    (ofEntries rows w').1 = .error fault ↔
      rows.mapM (fun row => (attributeEntries row.2 w).1) = .error fault := by
  induction rows generalizing w' with
  | nil =>
      constructor <;>
        · intro given
          cases given
  | cons row rest ih =>
      obtain ⟨name, written⟩ := row
      have further := attributeEntries_grown written w'
      have agree := Outcome.agree fun cause => @attributeEntries_fault_grown _ _ cause grown written
      rw [ofEntries, Task.bind_eq, List.mapM_cons]
      rcases ran : attributeEntries written w' with ⟨outcome, between⟩
      rw [ran] at further agree
      rcases agree with ⟨cause, rfl, here⟩ | ⟨entries, own, rfl, here⟩
      · rw [here]
        show Except.error cause = Except.error fault ↔ Except.error cause = Except.error fault
        simp
      · rw [here]
        exact Task.andThen_fault.trans
          ((ih (grown.trans further)).trans (Iff.symm Outcome.andThen_fault))

/-- The first row whose rules are not accepted decides what the fault is. -/
theorem ofEntries_refused {rows : Keyed Written} :
    (ofEntries rows w).1 = .error fault ↔
      ∃ before name written behind, rows = before ++ (name, written) :: behind ∧
        (∀ row ∈ before, row.2.Accepted w) ∧ written.Refused w fault := by
  simp only [ofEntries_fault (.refl w), Outcome.mapM_fault, attributeEntries_accepted,
    attributeEntries_refused, Prod.exists]

theorem ofEntries_accepted {rows : Keyed Written} :
    (∃ table, (ofEntries rows w).1 = .ok table) ↔ ∀ row ∈ rows, row.2.Accepted w := by
  have agree := Outcome.agree fun cause => @ofEntries_fault _ _ cause (.refl w) rows
  have all : (∃ given, rows.mapM (fun row => (attributeEntries row.2 w).1) = .ok given) ↔
      ∀ row ∈ rows, row.2.Accepted w := by
    simp only [← attributeEntries_accepted, Outcome.mapM_accepts]
  rw [← all]
  rcases agree with ⟨cause, here, there⟩ | ⟨table, given, here, there⟩ <;> simp [here, there]

/-- A table has the attributes of its rows, in order, and what is written for each has become its
    entries. -/
theorem ofEntries_becomes {rows : Keyed Written} {between : Workspace} {table : RuleTable}
    (grown : w.GrownIn between) (ran : ofEntries rows between = (.ok table, w'))
    (later : w'.GrownIn w'') :
    List.Forall₂ (fun row given => given.1 = row.1 ∧ row.2.Becomes w w'' given.2) rows table := by
  induction rows generalizing between table with
  | nil =>
      cases ran
      exact .nil
  | cons row rest ih =>
      obtain ⟨name, written⟩ := row
      obtain ⟨entries, first, made, ran⟩ := Task.bind_ran ran
      obtain ⟨others, last, laterMade, ran⟩ := Task.bind_ran ran
      cases ran
      have further := attributeEntries_grown written between
      have rest := ofEntries_grown rest first
      rw [made] at further
      rw [laterMade] at rest
      exact .cons ⟨rfl, attributeEntries_becomes grown made (rest.trans later)⟩
        (ih (grown.trans further) laterMade)

end RuleTable

/-! ## Mappings -/

namespace RuleSheet

/-- The keys of a mapping are texts, as attributes are. -/
def Named : RuleSheet → Prop
  | .value (.dict entries) => ∀ entry ∈ entries, ∃ name, entry.1 = .str name
  | .rules _ | .value _ => True

/-- A mapping gives attributes in order, with what is written as their rules. -/
inductive Lists : RuleSheet → Keyed Written → Prop where
  | rules (rows : Keyed Written) : Lists (.rules rows) rows
  | values (rows : Keyed Value) :
      Lists (.value (.dict (rows.map fun row => (.str row.1, row.2))))
        (rows.map fun row => (row.1, .value row.2))

theorem textEntries_named (texts : Keyed Value) :
    Value.textEntries (texts.map fun row => (.str row.1, row.2)) = texts := by
  simp [Value.textEntries, List.filterMap_map]

theorem keyed_of_named {entries : List (Value × Value)}
    (named : ∀ entry ∈ entries, ∃ name, entry.1 = .str name) :
    ∃ texts : Keyed Value, entries = texts.map fun row => (.str row.1, row.2) := by
  induction entries with
  | nil => exact ⟨[], rfl⟩
  | cons entry rest ih =>
      obtain ⟨⟨name, here⟩, others⟩ := List.forall_mem_cons.mp named
      obtain ⟨texts, rfl⟩ := ih others
      exact ⟨(name, entry.2) :: texts, by rw [List.map_cons, ← here]⟩

/-- Why a sheet is refused: it is no mapping, or the rules of an attribute are the first that are
    not accepted. -/
inductive Refused (w : Workspace) (sheet : RuleSheet) : Fault → Prop where
  | noMapping {v : Value} (same : sheet = .value v) (plain : ∀ entries, v ≠ .dict entries) :
      Refused w sheet (.invalidRule (.notAMapping v.typeName))
  | row {before : Keyed Written} {name : String} {written : Written} {behind : Keyed Written}
      {fault : Fault} (listed : sheet.Lists (before ++ (name, written) :: behind))
      (earlier : ∀ row ∈ before, row.2.Accepted w) (refused : written.Refused w fault) :
      Refused w sheet fault

variable {sheet : RuleSheet} {rows : Keyed Written}

theorem entries_eq_ok (named : sheet.Named) : sheet.entries = .ok rows ↔ sheet.Lists rows := by
  constructor
  · intro given
    cases sheet with
    | rules own =>
        cases given
        exact .rules rows
    | value v =>
        cases v with
        | dict entries =>
            obtain ⟨texts, rfl⟩ := keyed_of_named named
            cases given
            rw [textEntries_named]
            exact .values texts
        | _ => cases given
  · rintro (_ | texts)
    · rfl
    · rw [entries, textEntries_named]

theorem entries_eq_error : sheet.entries = .error fault ↔
    ∃ v, sheet = .value v ∧ (∀ entries, v ≠ .dict entries) ∧
      fault = .invalidRule (.notAMapping v.typeName) := by
  cases sheet with
  | rules rows => simp [RuleSheet.entries]
  | value v => cases v <;> simp [RuleSheet.entries, eq_comm]

end RuleSheet

namespace RuleTable

variable {sheet : RuleSheet}

theorem ofSheet_eq (sheet : RuleSheet) (w : Workspace) :
    ofSheet sheet w =
      match sheet.entries with
      | .ok rows => ofEntries rows w
      | .error fault => (.error fault, w) := by
  simp only [ofSheet, Task.bind_eq, Task.ofOutcome_eq]
  cases sheet.entries <;> rfl

theorem ofSheet_grown (sheet : RuleSheet) (w : Workspace) : w.GrownIn (ofSheet sheet w).2 := by
  rw [ofSheet_eq]
  cases sheet.entries with
  | ok rows => exact ofEntries_grown rows w
  | error fault => exact .refl w

theorem ofSheet_accepted (named : sheet.Named) :
    (∃ table, (ofSheet sheet w).1 = .ok table) ↔
      ∃ rows, sheet.Lists rows ∧ ∀ row ∈ rows, row.2.Accepted w := by
  simp only [ofSheet_eq, ← RuleSheet.entries_eq_ok named, ← ofEntries_accepted]
  cases sheet.entries <;> simp

theorem ofSheet_refused (named : sheet.Named) :
    (ofSheet sheet w).1 = .error fault ↔ sheet.Refused w fault := by
  rw [ofSheet_eq]
  constructor
  · intro failed
    cases given : sheet.entries with
    | error other =>
        rw [given] at failed
        cases failed
        obtain ⟨v, same, plain, rfl⟩ := RuleSheet.entries_eq_error.mp given
        exact .noMapping same plain
    | ok rows =>
        rw [given] at failed
        obtain ⟨before, name, written, behind, rfl, earlier, refused⟩ := ofEntries_refused.mp failed
        exact .row ((RuleSheet.entries_eq_ok named).mp given) earlier refused
  · intro refused
    cases refused with
    | noMapping same plain => rw [RuleSheet.entries_eq_error.mpr ⟨_, same, plain, rfl⟩]
    | row listed earlier refused =>
        rw [(RuleSheet.entries_eq_ok named).mpr listed]
        exact ofEntries_refused.mpr ⟨_, _, _, _, rfl, earlier, refused⟩

theorem ofSheet_becomes (named : sheet.Named) {table : RuleTable}
    (ran : ofSheet sheet w = (.ok table, w')) :
    ∃ rows, sheet.Lists rows ∧
      List.Forall₂ (fun row given => given.1 = row.1 ∧ row.2.Becomes w w' given.2) rows table := by
  rw [ofSheet_eq] at ran
  cases given : sheet.entries with
  | error fault =>
      rw [given] at ran
      cases ran
  | ok rows =>
      rw [given] at ran
      exact ⟨rows, (RuleSheet.entries_eq_ok named).mp given,
        ofEntries_becomes (.refl w) ran (.refl w')⟩

end RuleTable

end FieldRules
