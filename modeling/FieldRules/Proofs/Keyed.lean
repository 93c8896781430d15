import FieldRules.Keyed

/-! # Looking up entries

What operations on lists do to entries with distinct names.
-/

namespace FieldRules.Keyed

variable {α β : Type}

theorem get?_eq_none {entries : Keyed α} {name : String} :
    entries.get? name = none ↔ name ∉ entries.names := by
  induction entries with
  | nil => simp [get?_nil, names]
  | cons entry rest ih =>
      obtain ⟨first, value⟩ := entry
      simp only [get?_cons, names, List.map_cons, List.mem_cons, not_or]
      by_cases here : name = first
      · simp [here]
      · simpa [here, names] using ih

theorem has_iff {entries : Keyed α} {name : String} :
    entries.has name = true ↔ name ∈ entries.names := by
  rw [has, Option.isSome_iff_ne_none, ne_eq, get?_eq_none, Classical.not_not]

theorem mem_of_get? {entries : Keyed α} {name : String} {value : α}
    (found : entries.get? name = some value) : (name, value) ∈ entries := by
  induction entries with
  | nil => simp [get?_nil] at found
  | cons entry rest ih =>
      obtain ⟨first, old⟩ := entry
      rw [get?_cons] at found
      split at found
      · simp_all
      · exact List.mem_cons_of_mem _ (ih found)

theorem mem_names {entries : Keyed α} {name : String} {value : α}
    (member : (name, value) ∈ entries) : name ∈ entries.names :=
  List.mem_map.mpr ⟨_, member, rfl⟩

theorem get?_of_mem {entries : Keyed α} (distinct : entries.names.Nodup) {name : String}
    {value : α} (member : (name, value) ∈ entries) : entries.get? name = some value := by
  induction entries with
  | nil => simp at member
  | cons entry rest ih =>
      obtain ⟨first, old⟩ := entry
      obtain ⟨absent, tailDistinct⟩ := List.nodup_cons.mp distinct
      rw [get?_cons]
      rcases List.mem_cons.mp member with here | inRest
      · simp_all
      · have different : name ≠ first := fun same => absent (same ▸ mem_names inRest)
        simpa [different] using ih tailDistinct inRest

theorem get?_eq_some {entries : Keyed α} (distinct : entries.names.Nodup) {name : String}
    {value : α} : entries.get? name = some value ↔ (name, value) ∈ entries :=
  ⟨mem_of_get?, get?_of_mem distinct⟩

theorem value_unique {entries : Keyed α} (distinct : entries.names.Nodup) {name : String}
    {first second : α} (here : (name, first) ∈ entries) (there : (name, second) ∈ entries) :
    first = second := by
  have found := get?_of_mem distinct here
  rw [get?_of_mem distinct there] at found
  exact (Option.some.inj found).symm

/-- Look-up does not depend on the order of entries. -/
theorem get?_perm {entries others : Keyed α} (same : entries.Perm others)
    (distinct : entries.names.Nodup) (name : String) : entries.get? name = others.get? name := by
  have sameNames : entries.names.Perm others.names := same.map _
  have othersDistinct := sameNames.nodup_iff.mp distinct
  apply Option.ext
  intro value
  rw [get?_eq_some distinct, get?_eq_some othersDistinct, same.mem_iff]

theorem names_filter (p : String → Bool) (entries : Keyed α) :
    Keyed.names (entries.filter fun entry => p entry.1) = entries.names.filter p := by
  simp only [names, List.filter_map, Function.comp_def]

/-- Entries that are left out by name play no part in looking up the others. -/
theorem get?_filter (p : String → Bool) (entries : Keyed α) (name : String) :
    Keyed.get? (entries.filter fun entry => p entry.1) name =
      if p name then entries.get? name else none := by
  induction entries with
  | nil => simp [get?_nil]
  | cons entry rest ih =>
      obtain ⟨first, value⟩ := entry
      simp only [List.filter_cons, get?_cons]
      by_cases here : name = first
      · subst here
        cases kept : p name <;> simp [kept, get?_cons, ih]
      · cases p first <;> simp [get?_cons, here, ih]

/-- A new name comes last. -/
theorem put_of_not_mem {entries : Keyed α} {name : String} (absent : name ∉ entries.names)
    (value : α) : put name value entries = entries ++ [(name, value)] := by
  induction entries with
  | nil => rfl
  | cons entry rest ih =>
      obtain ⟨first, old⟩ := entry
      simp only [names, List.map_cons, List.mem_cons, not_or] at absent
      have different : first ≠ name := fun same => absent.1 same.symm
      simp only [put, different, if_false, List.cons_append, ih absent.2]

theorem names_put (name : String) (value : α) (entries : Keyed α) :
    (put name value entries).names =
      if name ∈ entries.names then entries.names else entries.names ++ [name] := by
  induction entries with
  | nil => rfl
  | cons entry rest ih =>
      obtain ⟨first, old⟩ := entry
      by_cases here : first = name
      · simp [put, here, names]
      · simp only [names] at ih
        simp only [put, here, names, if_false, List.map_cons, ih, List.mem_cons]
        by_cases later : name ∈ rest.map (·.1) <;> simp [Ne.symm here, later]

theorem names_prefix_putAll (entries : Keyed α) (more : List (String × α)) :
    entries.names <+: (entries.putAll more).names := by
  induction more generalizing entries with
  | nil => exact List.prefix_refl _
  | cons entry rest ih =>
      refine .trans ?_ (ih (put entry.1 entry.2 entries))
      rw [names_put]
      split
      · exact List.prefix_refl _
      · exact List.prefix_append _ _

theorem nodup_putAll {entries : Keyed α} (distinct : entries.names.Nodup)
    (more : List (String × α)) : (entries.putAll more).names.Nodup := by
  induction more generalizing entries with
  | nil => exact distinct
  | cons entry rest ih =>
      refine ih ?_
      rw [names_put]
      split
      next => exact distinct
      next absent =>
        refine List.nodup_append.mpr ⟨distinct, by simp, fun name member other last => ?_⟩
        obtain rfl := List.mem_singleton.mp last
        exact fun same => absent (same ▸ member)

/-- A name that has an entry keeps having one when more are set. -/
theorem has_putAll {entries : Keyed α} {name : String} (present : entries.has name = true)
    (more : List (String × α)) : (entries.putAll more).has name = true := by
  induction more generalizing entries with
  | nil => exact present
  | cons entry rest ih =>
      refine ih ?_
      rw [has] at present ⊢
      rw [get?_put]
      split
      · rfl
      · exact present

theorem mem_put {entries : Keyed α} {name : String} {value : α} {entry : String × α}
    (member : entry ∈ put name value entries) : entry = (name, value) ∨ entry ∈ entries := by
  induction entries with
  | nil => exact .inl (List.mem_singleton.mp member)
  | cons first rest ih =>
      simp only [put] at member
      split at member
      · rcases List.mem_cons.mp member with here | later
        · exact .inl here
        · exact .inr (List.mem_cons_of_mem _ later)
      · rcases List.mem_cons.mp member with here | later
        · exact .inr (here ▸ List.mem_cons_self)
        · exact (ih later).imp_right (List.mem_cons_of_mem _)

theorem nodup_ofList (entries : List (String × α)) : (ofList entries).names.Nodup := by
  have none : (names ([] : Keyed α)).Nodup := List.nodup_nil
  exact nodup_putAll none entries

theorem mem_putAll {entries : Keyed α} {more : List (String × α)} {entry : String × α}
    (member : entry ∈ entries.putAll more) : entry ∈ entries ∨ entry ∈ more := by
  induction more generalizing entries with
  | nil => exact .inl member
  | cons first rest ih =>
      rcases ih member with before | after
      · rcases mem_put before with rfl | old
        · exact .inr List.mem_cons_self
        · exact .inl old
      · exact .inr (List.mem_cons_of_mem _ after)

theorem mem_names_putAll (entries : Keyed α) {more : List (String × α)} {entry : String × α}
    (member : entry ∈ more) : entry.1 ∈ (entries.putAll more).names := by
  induction more generalizing entries with
  | nil => nomatch member
  | cons first rest ih =>
      rcases List.mem_cons.mp member with rfl | later
      · rw [← has_iff]
        refine has_putAll ?_ rest
        rw [has, get?_put, if_pos rfl]
        rfl
      · exact ih _ later

/-- Entries with distinct names are taken over as they are. -/
theorem putAll_of_nodup {entries more : Keyed α} (distinct : (names (entries ++ more)).Nodup) :
    entries.putAll more = entries ++ more := by
  induction more generalizing entries with
  | nil => simp [putAll]
  | cons entry rest ih =>
      have absent : entry.1 ∉ entries.names := by
        intro present
        simp only [names, List.map_append, List.map_cons] at distinct present
        exact (List.nodup_append.mp distinct).2.2 _ present _ List.mem_cons_self rfl
      have next : putAll entries (entry :: rest) = putAll (put entry.1 entry.2 entries) rest := rfl
      rw [next, put_of_not_mem absent, ih (by simpa using distinct)]
      simp

theorem ofList_of_nodup {entries : Keyed α} (distinct : entries.names.Nodup) :
    ofList entries = entries :=
  putAll_of_nodup distinct

theorem get?_putAll_last (entries : Keyed α) (more : List (String × α)) (name : String)
    (value : α) : (entries.putAll (more ++ [(name, value)])).get? name = some value := by
  rw [putAll, List.foldl_append]
  exact (get?_put ..).trans (if_pos rfl)

/-! ## Other values under the same names -/

/-- Entries with other values under the same names. -/
def mapped (g : α → β) (entries : Keyed α) : Keyed β := entries.map fun row => (row.1, g row.2)

theorem get?_mapped (g : α → β) (entries : Keyed α) (name : String) :
    (entries.mapped g).get? name = (entries.get? name).map g := by
  induction entries with
  | nil => rfl
  | cons entry rest ih =>
      obtain ⟨first, value⟩ := entry
      have here : mapped g ((first, value) :: rest) = (first, g value) :: mapped g rest := rfl
      rw [here, get?_cons, get?_cons, ih]
      split <;> rfl

theorem put_mapped (g : α → β) (name : String) (value : α) (entries : Keyed α) :
    put name (g value) (entries.mapped g) = mapped g (put name value entries) := by
  induction entries with
  | nil => rfl
  | cons entry rest ih =>
      obtain ⟨first, old⟩ := entry
      have here : mapped g ((first, old) :: rest) = (first, g old) :: mapped g rest := rfl
      rw [here, put, put, ih]
      split <;> rfl

theorem putAll_mapped (g : α → β) (entries : Keyed α) (more : List (String × α)) :
    (entries.mapped g).putAll (mapped g more) = mapped g (entries.putAll more) := by
  induction more generalizing entries with
  | nil => rfl
  | cons entry rest ih =>
      refine Eq.trans ?_ (ih (put entry.1 entry.2 entries))
      rw [← put_mapped]
      rfl

end FieldRules.Keyed
