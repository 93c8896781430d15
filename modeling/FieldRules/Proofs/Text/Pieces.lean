import FieldRules.Text.Pieces
import Mathlib.Data.List.DropRight
import Mathlib.Data.List.TakeWhile

/-! # What pieces of a text are

Trimming, cutting and splitting are described by how the text is put together again: from blanks
and a body, from the text before the first separator and the text after it, and from pieces
without the separator. Each description fits just one result, the one that is computed.
-/

namespace FieldRules.Text

/-! ## Trimming -/

/-- A text is a body between blanks, and the body neither begins nor ends with one. -/
structure Trimmed (cs body : List Char) : Prop where
  around : ∃ before after, cs = before ++ body ++ after ∧ (∀ c ∈ before, isBlank c = true) ∧
    ∀ c ∈ after, isBlank c = true
  first : ∀ c ∈ body.head?, isBlank c = false
  last : ∀ c ∈ body.getLast?, isBlank c = false

theorem Trimmed.self {cs : List Char} (first : ∀ c ∈ cs.head?, isBlank c = false)
    (last : ∀ c ∈ cs.getLast?, isBlank c = false) : Trimmed cs cs :=
  ⟨⟨[], [], by simp⟩, first, last⟩

theorem Trimmed.subset {cs body : List Char} (trimmed : Trimmed cs body) : body ⊆ cs := by
  obtain ⟨before, after, rfl, _⟩ := trimmed.around
  intro c inside
  simp [inside]

theorem strip_eq (cs : List Char) : strip cs = (cs.dropWhile isBlank).rdropWhile isBlank := rfl

theorem rdropWhile_append_of_pos {p : Char → Bool} {after : List Char}
    (dropped : ∀ c ∈ after, p c = true) (cs : List Char) :
    (cs ++ after).rdropWhile p = cs.rdropWhile p := by
  have reversed : ∀ c ∈ after.reverse, p c = true := fun c member =>
    dropped c (List.mem_reverse.mp member)
  rw [List.rdropWhile, List.reverse_append, List.dropWhile_append_of_pos reversed, List.rdropWhile]

/-- Only characters of the class are dropped, whatever the class is. -/
theorem trim_around (drop : Char → Bool) (cs : List Char) :
    ∃ before after, cs = before ++ trim drop cs ++ after ∧ (∀ c ∈ before, drop c = true) ∧
      ∀ c ∈ after, drop c = true := by
  refine ⟨cs.takeWhile drop, (cs.dropWhile drop).rtakeWhile drop, ?_, ?_, ?_⟩
  · have trimmed : trim drop cs = (cs.dropWhile drop).rdropWhile drop := rfl
    rw [trimmed, List.append_assoc, List.rdropWhile_append_rtakeWhile,
      List.takeWhile_append_dropWhile]
  · exact fun c member => List.mem_takeWhile_imp member
  · exact fun c member => List.mem_rtakeWhile_imp member

/-- What is kept if none of it is of the class. -/
theorem trim_between {drop : Char → Bool} {before body after : List Char}
    (droppedBefore : ∀ c ∈ before, drop c = true) (droppedAfter : ∀ c ∈ after, drop c = true)
    (solid : ∀ c ∈ body, drop c = false) : trim drop (before ++ body ++ after) = body := by
  have trimmed (cs : List Char) : trim drop cs = (cs.dropWhile drop).rdropWhile drop := rfl
  rw [trimmed, List.append_assoc, List.dropWhile_append_of_pos droppedBefore]
  -- Without a body the front goes on into what is dropped behind.
  cases body with
  | nil =>
      rw [List.nil_append, List.dropWhile_eq_nil_iff.mpr droppedAfter, List.rdropWhile_nil]
  | cons c rest =>
      have front : (c :: rest ++ after).dropWhile drop = c :: rest ++ after :=
        List.dropWhile_cons_of_neg (by simp [solid c List.mem_cons_self])
      rw [front, rdropWhile_append_of_pos droppedAfter, List.rdropWhile_eq_self_iff]
      intro nonempty
      simp [solid _ (List.getLast_mem nonempty)]

theorem trimmed_strip (cs : List Char) : Trimmed cs (strip cs) where
  around := trim_around isBlank cs
  first := by
    intro c found
    obtain ⟨after, whole⟩ : strip cs <+: cs.dropWhile isBlank := List.rdropWhile_prefix isBlank _
    have same : (cs.dropWhile isBlank).head? = some c := by
      rw [← whole, List.head?_append, found]
      rfl
    simpa [same] using List.head?_dropWhile_not isBlank cs
  last := by
    intro c found
    obtain ⟨nonempty, rfl⟩ := List.mem_getLast?_eq_getLast found
    have kept := List.rdropWhile_last_not isBlank (cs.dropWhile isBlank) nonempty
    exact Bool.not_eq_true _ ▸ kept

/-- There is one body between blanks. -/
theorem trimmed_iff {cs body : List Char} : Trimmed cs body ↔ strip cs = body := by
  constructor
  · rintro ⟨⟨before, after, rfl, blankBefore, blankAfter⟩, first, last⟩
    rw [strip_eq, List.append_assoc, List.dropWhile_append_of_pos blankBefore]
    -- Without a body the blanks in front go on into those behind.
    cases body with
    | nil =>
        have gone : after.dropWhile isBlank = [] := List.dropWhile_eq_nil_iff.mpr blankAfter
        rw [List.nil_append, gone, List.rdropWhile_nil]
    | cons c rest =>
        have front : (c :: rest ++ after).dropWhile isBlank = c :: rest ++ after :=
          List.dropWhile_cons_of_neg (by simp [first c rfl])
        rw [front, rdropWhile_append_of_pos blankAfter, List.rdropWhile_eq_self_iff]
        intro nonempty
        simp [last _ (List.getLast?_eq_getLast_of_ne_nil nonempty)]
  · rintro rfl
    exact trimmed_strip cs

/-! ## Cutting -/

/-- A text is cut at its first separator, and left whole if it has none. -/
inductive Cut (separator : Char) : List Char → List Char → Option (List Char) → Prop where
  | whole {cs : List Char} (uncut : separator ∉ cs) : Cut separator cs cs none
  | apart {before : List Char} (uncut : separator ∉ before) (after : List Char) :
      Cut separator (before ++ separator :: after) before (some after)

theorem Cut.uncut {separator : Char} {cs before : List Char} {after : Option (List Char)}
    (parts : Cut separator cs before after) : separator ∉ before := by
  cases parts with
  | whole uncut | apart uncut => exact uncut

theorem Cut.subset {separator : Char} {cs before : List Char} {after : Option (List Char)}
    (parts : Cut separator cs before after) : before ⊆ cs ∧ ∀ rest ∈ after, rest ⊆ cs := by
  cases parts with
  | whole uncut => exact ⟨fun c inside => inside, fun rest member => nomatch member⟩
  | apart uncut after =>
      refine ⟨List.subset_append_left _ _, ?_⟩
      rintro rest ⟨⟩ c inside
      simp [inside]

theorem cut_whole {separator : Char} {cs : List Char} (uncut : separator ∉ cs) :
    cut separator cs = (cs, none) := by
  induction cs with
  | nil => rfl
  | cons c rest ih =>
      obtain ⟨different, uncutRest⟩ := not_or.mp (mt List.mem_cons.mpr uncut)
      simp only [cut, Ne.symm different, if_false, ih uncutRest]

theorem cut_apart {separator : Char} {before : List Char} (uncut : separator ∉ before)
    (after : List Char) : cut separator (before ++ separator :: after) = (before, some after) := by
  induction before with
  | nil => simp [cut]
  | cons c rest ih =>
      obtain ⟨different, uncutRest⟩ := not_or.mp (mt List.mem_cons.mpr uncut)
      simp only [List.cons_append, cut, Ne.symm different, if_false, ih uncutRest]

theorem cut_cut (separator : Char) (cs : List Char) :
    Cut separator cs (cut separator cs).1 (cut separator cs).2 := by
  by_cases separated : separator ∈ cs
  · obtain ⟨before, after, rfl, uncut⟩ := List.eq_append_cons_of_mem separated
    rw [cut_apart uncut]
    exact .apart uncut after
  · rw [cut_whole separated]
    exact .whole separated

theorem cut_iff {separator : Char} {cs before : List Char} {after : Option (List Char)} :
    Cut separator cs before after ↔ cut separator cs = (before, after) := by
  constructor
  · rintro (⟨uncut⟩ | ⟨uncut, after⟩)
    · exact cut_whole uncut
    · exact cut_apart uncut after
  · intro same
    have parts := cut_cut separator cs
    rwa [same] at parts

/-! ## Splitting -/

/-- Pieces without a separator that, joined by separators, are a text. -/
structure Separated (separator : Char) (cs : List Char) (pieces : List (List Char)) : Prop where
  some : pieces ≠ []
  whole : ∀ piece ∈ pieces, separator ∉ piece
  joined : [separator].intercalate pieces = cs

theorem subset_intercalate {separator : Char} {pieces : List (List Char)} {piece : List Char}
    (member : piece ∈ pieces) : piece ⊆ [separator].intercalate pieces := by
  induction pieces with
  | nil => nomatch member
  | cons first rest ih =>
      intro c inside
      cases rest with
      | nil =>
          obtain rfl := List.mem_singleton.mp member
          simpa using inside
      | cons second rest =>
          rw [List.intercalate_cons_cons]
          rcases List.mem_cons.mp member with rfl | later
          · simp [inside]
          · exact List.mem_append_right _ (ih later inside)

theorem mem_intercalate {separator c : Char} {pieces : List (List Char)}
    (inside : c ∈ [separator].intercalate pieces) : c = separator ∨ ∃ piece ∈ pieces, c ∈ piece := by
  induction pieces with
  | nil => nomatch inside
  | cons first rest ih =>
      cases rest with
      | nil => exact .inr ⟨first, List.mem_cons_self, by simpa using inside⟩
      | cons second rest =>
          rw [List.intercalate_cons_cons, List.append_assoc] at inside
          rcases List.mem_append.mp inside with here | later
          · exact .inr ⟨first, List.mem_cons_self, here⟩
          · rcases List.mem_cons.mp later with rfl | later
            · exact .inl rfl
            · refine (ih later).imp_right ?_
              rintro ⟨piece, member, here⟩
              exact ⟨piece, List.mem_cons_of_mem _ member, here⟩

theorem intercalate_concat (separator : Char) (labels : List (List Char)) (last : List Char) :
    [separator].intercalate (labels ++ [last]) = labels.flatMap (· ++ [separator]) ++ last := by
  induction labels with
  | nil => simp
  | cons first rest ih =>
      rw [List.flatMap_cons, List.append_assoc, ← ih]
      cases rest <;> simp [List.intercalate_cons_cons]

/-- Behind another character, the last piece stands behind that one or behind a separator. -/
theorem cons_intercalate (c separator : Char) {pieces : List (List Char)} {last : List Char}
    (ending : last ∈ pieces.getLast?) :
    ∃ front mark, (mark = c ∨ mark = separator) ∧
      c :: [separator].intercalate pieces = front ++ mark :: last := by
  induction pieces generalizing c with
  | nil => nomatch ending
  | cons first rest ih =>
      cases rest with
      | nil =>
          obtain rfl : first = last := by simpa using ending
          exact ⟨[], c, .inl rfl, by simp⟩
      | cons second rest =>
          obtain ⟨front, mark, known, split⟩ := ih separator (by simpa using ending)
          refine ⟨c :: first ++ front, mark, .inr (known.elim id id), ?_⟩
          rw [List.append_assoc, ← split]
          simp [List.intercalate_cons_cons]

theorem joinWith_toList (separator : String) (parts : List String) :
    (joinWith separator parts).toList =
      separator.toList.intercalate (parts.map String.toList) := by
  induction parts with
  | nil => rfl
  | cons first rest ih =>
      cases rest with
      | nil => simp [joinWith]
      | cons second rest => simp [joinWith, ih, List.intercalate_cons_cons]

theorem splitOn_eq (separator : Char) (cs : List Char) :
    splitOn separator cs = cs.splitOn separator := by
  induction cs with
  | nil => rfl
  | cons c rest ih =>
      rw [List.splitOn_cons_eq_if_modifyHead, ← ih]
      simp only [splitOn, beq_iff_eq]
      split
      · rfl
      · cases found : splitOn separator rest with
        | nil => exact absurd (ih ▸ found) (List.splitOn_ne_nil separator rest)
        | cons piece pieces => rfl

theorem not_mem_of_mem_splitOn {separator : Char} {cs piece : List Char}
    (member : piece ∈ splitOn separator cs) : separator ∉ piece := by
  induction cs generalizing piece with
  | nil =>
      obtain rfl := List.mem_singleton.mp member
      exact List.not_mem_nil
  | cons c rest ih =>
      simp only [splitOn] at member
      split at member
      · rcases List.mem_cons.mp member with rfl | later
        · exact List.not_mem_nil
        · exact ih later
      · rename_i different
        split at member
        · rename_i first others found
          rcases List.mem_cons.mp member with rfl | later
          · have firstWhole := ih (found ▸ List.mem_cons_self)
            exact fun inside => (List.mem_cons.mp inside).elim (different ∘ Eq.symm) firstWhole
          · exact ih (found ▸ List.mem_cons_of_mem first later)
        · obtain rfl := List.mem_singleton.mp member
          simpa using Ne.symm different

theorem separated_iff {separator : Char} {cs : List Char} {pieces : List (List Char)} :
    Separated separator cs pieces ↔ pieces = splitOn separator cs := by
  constructor
  · rintro ⟨some, whole, rfl⟩
    rw [splitOn_eq, List.splitOn_intercalate separator whole some]
  · rintro rfl
    refine ⟨?_, fun piece => not_mem_of_mem_splitOn, ?_⟩
    · rw [splitOn_eq]
      exact List.splitOn_ne_nil separator cs
    · rw [splitOn_eq]
      exact List.intercalate_splitOn separator

end FieldRules.Text
