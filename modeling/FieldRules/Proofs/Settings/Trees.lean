import FieldRules.Settings.Tree

/-! # What paths lead to in trees

A path leads to a leaf or to a tree, it is blocked by a leaf on the way, or it leaves the tree.
Laying one tree over another is described by what it does to the ends of all paths: a path leads
where it leads in the upper tree, and where it leaves that one it leads on in the lower tree. Only
whether it is blocked or leaves the tree is not kept apart, because a tree hides a leaf below it.
-/

namespace FieldRules

namespace Value

/-! ## Entries with texts as keys -/

theorem same_str {key : Value} {name : String} : same key (.str name) = true ↔ key = .str name := by
  cases key <;> simp [same, number?]

theorem str_same {name : String} {key : Value} : same (.str name) key = true ↔ key = .str name := by
  cases key with
  | str other => simpa [same] using eq_comm
  | _ => simp [same]

section Entries

variable {α : Type}

theorem lookup?_nil (wanted : Value) : lookup? (α := α) wanted [] = .none := rfl

theorem lookup?_cons (key wanted : Value) (value : α) (rest : List (Value × α)) :
    lookup? wanted ((key, value) :: rest) =
      if same key wanted then some value else lookup? wanted rest := by
  cases h : same key wanted <;> simp [lookup?, h]

theorem mem_of_lookup? {wanted : Value} {value : α} {entries : List (Value × α)}
    (found : lookup? wanted entries = some value) : ∃ key, (key, value) ∈ entries := by
  obtain ⟨⟨key, _⟩, entry, rfl⟩ := Option.map_eq_some_iff.mp found
  exact ⟨key, List.mem_of_find?_eq_some entry⟩

theorem lookup?_insert_self (name : String) (value : α) (entries : List (Value × α)) :
    lookup? (.str name) (insert (.str name) value entries) = some value := by
  induction entries with
  | nil => simp [insert, lookup?_cons, same_str]
  | cons entry rest ih =>
      obtain ⟨key, old⟩ := entry
      simp only [insert]
      split
      next here => simp [lookup?_cons, here]
      next apart => simp [lookup?_cons, apart, ih]

theorem lookup?_insert_other {key : Value} {name : String} (different : key ≠ .str name)
    (value : α) (entries : List (Value × α)) :
    lookup? (.str name) (insert key value entries) = lookup? (.str name) entries := by
  induction entries with
  | nil => simp [insert, lookup?_cons, same_str, different]
  | cons entry rest ih =>
      obtain ⟨other, old⟩ := entry
      simp only [insert]
      split
      next here =>
        have otherDifferent : other ≠ .str name := by
          rintro rfl
          exact different (str_same.mp here)
        simp [lookup?_cons, same_str, otherDifferent]
      next => simp [lookup?_cons, ih]

/-- An entry is an old one, or it has the new value and the new key or an old one. -/
theorem mem_insert {key : Value} {value : α} {entries : List (Value × α)} {entry : Value × α}
    (member : entry ∈ insert key value entries) :
    entry ∈ entries ∨ entry.2 = value ∧ (entry.1 = key ∨ ∃ old, (entry.1, old) ∈ entries) := by
  induction entries with
  | nil =>
      obtain rfl := List.mem_singleton.mp member
      exact .inr ⟨rfl, .inl rfl⟩
  | cons first rest ih =>
      obtain ⟨other, old⟩ := first
      simp only [insert] at member
      split at member
      · rcases List.mem_cons.mp member with rfl | later
        · exact .inr ⟨rfl, .inr ⟨old, List.mem_cons_self⟩⟩
        · exact .inl (List.mem_cons_of_mem _ later)
      · rcases List.mem_cons.mp member with rfl | later
        · exact .inl List.mem_cons_self
        · refine (ih later).imp (List.mem_cons_of_mem _) (And.imp_right (Or.imp_right ?_))
          exact fun ⟨older, there⟩ => ⟨older, List.mem_cons_of_mem _ there⟩

/-- What is set twice has the later value. -/
theorem insert_insert (name : String) (value old : α) (entries : List (Value × α)) :
    insert (.str name) value (insert (.str name) old entries) =
      insert (.str name) value entries := by
  induction entries with
  | nil => simp [insert, same_str]
  | cons entry rest ih =>
      obtain ⟨key, older⟩ := entry
      cases here : same key (.str name) with
      | true => simp [insert, here]
      | false => simp [insert, here, ih]

/-- To set what a key has changes nothing. -/
theorem insert_lookup? {key : Value} {value : α} {entries : List (Value × α)}
    (found : lookup? key entries = some value) : insert key value entries = entries := by
  induction entries with
  | nil => nomatch found
  | cons entry rest ih =>
      obtain ⟨other, old⟩ := entry
      rw [lookup?_cons] at found
      cases here : same other key with
      | true =>
          obtain rfl : old = value := by simpa [here] using found
          simp [insert, here]
      | false =>
          rw [here] at found
          simp [insert, here, ih found]

/-- The keys of entries are distinct. -/
def Distinct (entries : List (Value × α)) : Prop :=
  entries.Pairwise fun entry other => same entry.1 other.1 = false

theorem distinct_keys {entries : List (Value × α)} :
    Distinct entries ↔ (entries.map (·.1)).Pairwise fun key other => same key other = false := by
  rw [Distinct, List.pairwise_map]

theorem Distinct.insert {entries : List (Value × α)} (distinct : Distinct entries) (key : Value)
    (value : α) : Distinct (insert key value entries) := by
  induction entries with
  | nil => exact List.pairwise_singleton ..
  | cons first rest ih =>
      obtain ⟨other, old⟩ := first
      obtain ⟨others, rest⟩ := List.pairwise_cons.mp distinct
      simp only [Value.insert]
      split
      next => exact List.pairwise_cons.mpr ⟨others, rest⟩
      next apart =>
        refine List.pairwise_cons.mpr ⟨fun entry member => ?_, ih rest⟩
        rcases mem_insert member with kept | ⟨-, new | ⟨older, kept⟩⟩
        · exact others entry kept
        · simpa [new] using apart
        · exact others (entry.1, older) kept

end Entries

/-- The keys of every dictionary in a tree are distinct, as those of a mapping are. -/
inductive Tidy : Value → Prop where
  | tree {entries : List (Value × Value)}
      (distinct : entries.Pairwise fun entry other => same entry.1 other.1 = false)
      (inner : ∀ entry ∈ entries, entry.2.Tidy) : Tidy (.dict entries)
  | leaf {value : Value} (plain : ∀ entries, value ≠ .dict entries) : Tidy value

namespace Tidy

variable {entries : List (Value × Value)}

theorem distinct (tidy : (Value.dict entries).Tidy) :
    entries.Pairwise fun entry other => same entry.1 other.1 = false := by
  cases tidy with
  | tree distinct _ => exact distinct
  | leaf plain => exact absurd rfl (plain entries)

theorem inner (tidy : (Value.dict entries).Tidy) : ∀ entry ∈ entries, entry.2.Tidy := by
  cases tidy with
  | tree _ inner => exact inner
  | leaf plain => exact absurd rfl (plain entries)

theorem dict_iff : (Value.dict entries).Tidy ↔
    (entries.Pairwise fun entry other => same entry.1 other.1 = false) ∧
      ∀ entry ∈ entries, entry.2.Tidy :=
  ⟨fun tidy => ⟨tidy.distinct, tidy.inner⟩, fun ⟨distinct, inner⟩ => .tree distinct inner⟩

theorem empty : (Value.dict []).Tidy := .tree .nil fun _ member => nomatch member

theorem tail {entry : Value × Value} {rest : List (Value × Value)}
    (tidy : (Value.dict (entry :: rest)).Tidy) : (Value.dict rest).Tidy :=
  .tree (List.pairwise_cons.mp tidy.distinct).2 fun other member =>
    tidy.inner other (List.mem_cons_of_mem _ member)

theorem lookup? (tidy : (Value.dict entries).Tidy) {key value : Value}
    (found : Value.lookup? key entries = some value) : value.Tidy := by
  obtain ⟨name, member⟩ := mem_of_lookup? found
  exact tidy.inner _ member

/-- A text that is the first key stands nowhere else. -/
theorem first_alone {name : String} {value : Value} {rest : List (Value × Value)}
    (tidy : (Value.dict ((.str name, value) :: rest)).Tidy) :
    Value.lookup? (.str name) rest = .none := by
  rw [Value.lookup?, Option.map_eq_none_iff, List.find?_eq_none]
  intro entry member again
  have different := (List.pairwise_cons.mp tidy.distinct).1 entry member
  rw [same_str.mp again, str_same.mpr rfl] at different
  exact nomatch different

theorem insert (tidy : (Value.dict entries).Tidy) (key : Value) {value : Value}
    (valueTidy : value.Tidy) : (Value.dict (Value.insert key value entries)).Tidy := by
  refine .tree (Distinct.insert tidy.distinct key value) fun entry member => ?_
  rcases mem_insert member with kept | ⟨new, -⟩
  · exact tidy.inner entry kept
  · exact new ▸ valueTidy

end Tidy

end Value

namespace Settings

/-! ## Ends of paths -/

/-- What a path leads to. -/
inductive Ending where
  | leaf (value : Value)
  | tree
  /-- There is a leaf on the way. -/
  | blocked
  /-- The path leaves the tree. -/
  | absent

/-- What a path leads to from a value, if there is one. -/
def ending : (path : List String) → Option Value → Ending
  | _, none => .absent
  | [], some (.dict _) => .tree
  | [], some value => .leaf value
  | part :: rest, some (.dict entries) => ending rest (Value.lookup? (.str part) entries)
  | _ :: _, some _ => .blocked

namespace Ending

/-- What can be seen of an end from above. -/
def visible : Ending → Ending
  | blocked => absent
  | found => found

/-- The first end unless its path leaves the tree. -/
def orElse : Ending → Ending → Ending
  | absent, other => other
  | found, _ => found

theorem orElse_of_ne {first : Ending} (stays : first ≠ absent) (second : Ending) :
    first.orElse second = first := by
  cases first with
  | absent => exact absurd rfl stays
  | leaf | tree | blocked => rfl

theorem visible_orElse {first second : Ending} (unseen : second.visible = absent) :
    (first.orElse second).visible = first.visible := by
  cases first with
  | absent => exact unseen
  | leaf | tree | blocked => rfl

end Ending

theorem ending_none (path : List String) : ending path none = .absent := by
  cases path <;> rfl

theorem ending_leaf {value : Value} (leaf : ∀ below, value ≠ .dict below) :
    ending [] (some value) = .leaf value := by
  cases value with
  | dict below => exact absurd rfl (leaf below)
  | _ => rfl

theorem eq_of_ending_leaf {got value : Value} (leads : ending [] (some got) = .leaf value) :
    got = value := by
  cases got <;> cases leads <;> rfl

theorem ending_empty (part : String) (rest : List String) :
    ending (part :: rest) (some (.dict [])) = .absent := by
  rw [ending, Value.lookup?_nil, ending_none]

theorem ending_walk (path : List String) (tree : Value) :
    (ending path (some tree)).visible = ending [] (walk? path tree) := by
  induction path generalizing tree with
  | nil => cases tree <;> rfl
  | cons part rest ih =>
      cases tree with
      | dict entries =>
          simp only [ending, walk?]
          cases Value.lookup? (.str part) entries with
          | none => simp only [ending_none, Ending.visible]
          | some inner => exact ih inner
      | _ => rfl

theorem ending_append {path : List String} {tree value : Value}
    (walked : walk? path tree = some value) (more : List String) :
    ending (path ++ more) (some tree) = ending more (some value) := by
  induction path generalizing tree with
  | nil =>
      obtain rfl := Option.some.inj walked
      rfl
  | cons part rest ih =>
      cases tree with
      | dict entries =>
          simp only [walk?] at walked
          rw [List.cons_append, ending]
          cases found : Value.lookup? (.str part) entries with
          | none => simp [found] at walked
          | some inner =>
              rw [found] at walked
              exact ih walked
      | _ => nomatch walked

/-- Values with the same leaves at the same paths. The order of entries plays no part. -/
def Alike (value other : Value) : Prop :=
  ∀ path, (ending path (some value)).visible = (ending path (some other)).visible

theorem Alike.refl (value : Value) : Alike value value := fun _ => rfl

theorem ending_nil (value : Value) : ending [] (some value) ≠ .absent := by
  cases value <;> nofun

theorem Alike.walk {tree other : Value} (alike : Alike tree other) (path : List String)
    (default : Value) :
    Alike ((walk? path tree).getD default) ((walk? path other).getD default) := by
  have here := alike path
  rw [ending_walk, ending_walk] at here
  cases walked : walk? path tree with
  | none =>
      cases walked' : walk? path other with
      | none => exact .refl default
      | some value' =>
          rw [walked, walked'] at here
          exact absurd here.symm (ending_nil value')
  | some value =>
      cases walked' : walk? path other with
      | none =>
          rw [walked, walked'] at here
          exact absurd here (ending_nil value)
      | some value' =>
          intro more
          have below := alike (path ++ more)
          rwa [ending_append walked, ending_append walked'] at below

/-! ## One tree over another -/

theorem lookup?_overlayEntries {entries : List (Value × Value)} (tidy : (Value.dict entries).Tidy)
    (base : List (Value × Value)) (name : String) :
    Value.lookup? (.str name) (overlayEntries base entries) =
      match Value.lookup? (.str name) entries with
      | some value => some (overlay (Value.lookup? (.str name) base) value)
      | none => Value.lookup? (.str name) base := by
  induction entries generalizing base with
  | nil => simp [overlayEntries, Value.lookup?_nil]
  | cons entry rest ih =>
      obtain ⟨key, value⟩ := entry
      rw [overlayEntries, ih tidy.tail, Value.lookup?_cons]
      by_cases here : key = .str name
      · subst here
        simp [tidy.first_alone, Value.same_str, Value.lookup?_insert_self]
      · simp [Value.same_str, here, Value.lookup?_insert_other here]

/-- A path leads where it leads in the upper tree, and where it leaves that one, on in the lower. -/
theorem ending_overlay {new : Value} (tidy : new.Tidy) (path : List String) (old : Option Value) :
    (ending path (some (overlay old new))).visible =
      ((ending path (some new)).orElse (ending path old)).visible := by
  induction path generalizing new old with
  | nil =>
      cases new with
      | dict entries => rcases old with - | (_ | _) <;> rfl
      | _ => rfl
  | cons part rest ih =>
      cases new with
      | dict entries =>
          cases old with
          | none => exact (Ending.visible_orElse rfl).symm
          | some old =>
              cases old with
              | dict base =>
                  simp only [overlay, ending, lookup?_overlayEntries tidy]
                  cases found : Value.lookup? (.str part) entries with
                  | none => simp only [ending_none, Ending.orElse]
                  | some inner => exact ih (tidy.lookup? found) _
              | _ => exact (Ending.visible_orElse rfl).symm
      | _ => rfl

end Settings

end FieldRules
