import FieldRules.Pattern.Reader
import FieldRules.Proofs.Pattern.Replacing
import FieldRules.Proofs.Text.Case
import FieldRules.Text.Words

/-! # Where words begin

Both passes over a name cut where two neighbours and the character behind them say so, although the
first one takes whole rows of capitals at once and the second one sees the underscores of the first.
So a name is cut in one pass: in front of each capital that follows a small letter or a digit, or
that follows a capital and stands in front of a small letter.
-/

namespace FieldRules.Text

open Pattern

/-! ## Classes of characters -/

theorem capital_apart {c : Char} (capital : isCapital c = true) :
    isSmall c = false ∧ isAsciiDigit c = false := by
  simp only [isCapital, isSmall, isAsciiDigit, Bool.and_eq_true, decide_eq_true_eq, Char.le_def,
    UInt32.le_iff_toNat_le, Bool.and_eq_false_iff, decide_eq_false_iff_not] at capital ⊢
  have capitals : ('A' : Char).val.toNat = 65 ∧ ('Z' : Char).val.toNat = 90 := ⟨rfl, rfl⟩
  have smalls : ('a' : Char).val.toNat = 97 := rfl
  have digits : ('9' : Char).val.toNat = 57 := rfl
  omega

theorem not_capital_of_small {c : Char} (small : isSmall c = true) : isCapital c = false := by
  cases capital : isCapital c with
  | false => rfl
  | true => nomatch small.symm.trans (capital_apart capital).1

/-- The sets of both patterns are the classes of characters. -/
theorem inSet_words (c : Char) :
    inSet {} false capitalItems c = isCapital c ∧
      inSet {} false [.range 97 122] c = isSmall c ∧
      inSet {} false [.range 97 122, .range 48 57] c = (isSmall c || isAsciiDigit c) := by
  simp [inSet, capitalItems, SetItem.holds, isCapital, isSmall, isAsciiDigit, Char.le_def,
    UInt32.le_iff_toNat_le]

/-! ## Cutting between neighbours -/

/-- A text with underscores between the neighbours that are to be apart, which the character behind
    them may decide. -/
def divided (apart : Char → Char → Option Char → Bool) : List Char → List Char
  | c :: d :: rest =>
    if apart c d rest.head? then c :: '_' :: divided apart (d :: rest)
    else c :: divided apart (d :: rest)
  | cs => cs

/-- A row of capitals ends before its last one if a small letter follows. -/
def rowEnds (c d : Char) (after : Option Char) : Bool :=
  isCapital c && isCapital d && after.any isSmall

/-- A capital behind a small letter or a digit. -/
def hump (c d : Char) (_ : Option Char) : Bool := (isSmall c || isAsciiDigit c) && isCapital d

/-- Whether a word begins with the second of two neighbours: it is a capital, and a small letter or
    a digit is before it, or a capital is and a small letter follows. -/
def wordBegins (c d : Char) (after : Option Char) : Bool :=
  isCapital d && ((isSmall c || isAsciiDigit c) || (isCapital c && after.any isSmall))

variable {apart : Char → Char → Option Char → Bool}

theorem divided_kept {c d : Char} {rest : List Char} (joined : apart c d rest.head? = false) :
    divided apart (c :: d :: rest) = c :: divided apart (d :: rest) := by
  simp [divided, joined]

theorem divided_cut {c d : Char} {rest : List Char} (begins : apart c d rest.head? = true) :
    divided apart (c :: d :: rest) = c :: '_' :: divided apart (d :: rest) := by
  simp [divided, begins]

/-- A character behind which nothing can be cut. -/
theorem divided_behind {c : Char} (never : ∀ d after, apart c d after = false) (rest : List Char) :
    divided apart (c :: rest) = c :: divided apart rest := by
  cases rest with
  | nil => rfl
  | cons d rest => exact divided_kept (never d rest.head?)

theorem divided_head (c : Char) (rest : List Char) :
    ∃ after, divided apart (c :: rest) = c :: after := by
  cases rest with
  | nil => exact ⟨[], rfl⟩
  | cons d rest =>
      by_cases begins : apart c d rest.head? = true
      · exact ⟨_, divided_cut begins⟩
      · exact ⟨_, divided_kept (Bool.not_eq_true _ ▸ begins)⟩

/-- Cutting at humps what was cut at the ends of rows is cutting once: an underscore is no part of a
    hump, and a cut leaves the neighbours of the others as they were. -/
theorem divided_twice (cs : List Char) :
    divided hump (divided rowEnds cs) = divided wordBegins cs := by
  induction cs with
  | nil => rfl
  | cons c rest ih =>
      cases rest with
      | nil => rfl
      | cons d rest =>
          obtain ⟨after, whole⟩ : ∃ after, divided rowEnds (d :: rest) = d :: after :=
            divided_head d rest
          rw [whole] at ih
          have mark (rest : List Char) : divided hump ('_' :: rest) = '_' :: divided hump rest :=
            divided_behind (fun d after => by simp [hump, isSmall, isAsciiDigit]) rest
          have unmarked : hump c '_' (some d) = false := by simp [hump, isCapital]
          have either : wordBegins c d rest.head? =
              (hump c d after.head? || rowEnds c d rest.head?) := by
            simp only [wordBegins, rowEnds, hump]
            cases isCapital d <;> cases isCapital c <;> simp
          cases row : rowEnds c d rest.head? with
          | true =>
              have begins : wordBegins c d rest.head? = true := by rw [either, row, Bool.or_true]
              rw [divided_cut row, divided_cut begins, whole, divided_kept unmarked, mark, ih]
          | false =>
              rw [divided_kept row, whole]
              rw [row, Bool.or_false] at either
              cases capital : hump c d after.head? with
              | true => rw [divided_cut capital, divided_cut (either.trans capital), ih]
              | false => rw [divided_kept capital, divided_kept (either.trans capital), ih]

/-! ## The two passes -/

/-- A row of capitals, and a capital with a small letter behind it. -/
def WordPair (u v : List Char) : Prop :=
  u ≠ [] ∧ (∀ c ∈ u, isCapital c = true) ∧
    ∃ d e, v = [d, e] ∧ isCapital d = true ∧ isSmall e = true

/-- A small letter or digit, and a capital. -/
def HumpPair (u v : List Char) : Prop :=
  ∃ c d, u = [c] ∧ v = [d] ∧ (isSmall c || isAsciiDigit c) = true ∧ isCapital d = true

theorem humpPattern_matches : MatchesPairs humpPattern HumpPair where
  moves := by
    rintro u v ⟨c, d, rfl, -⟩
    exact List.cons_ne_nil c []
  found := by
    rintro text position u v rest left ⟨c, d, rfl, rfl, first, second⟩
    have behind : text.toList.drop (position + 1) = d :: rest := by
      rw [← List.tail_drop, left]
      rfl
    simp only [matchAt?, humpPattern, matchThen_seq, matchThen_capture,
      matchThen_set fun c => (inSet_words c).1, matchThen_set fun c => (inSet_words c).2.2,
      Cursor.left, Cursor.advanced, left, behind, List.cons_append, first, second]
    rfl
  absent := by
    intro text position unpaired
    simp only [matchAt?, humpPattern, matchThen_seq, matchThen_capture,
      matchThen_set fun c => (inSet_words c).1, matchThen_set fun c => (inSet_words c).2.2,
      Cursor.left, Cursor.advanced]
    cases left : text.toList.drop position with
    | nil => rfl
    | cons c rest =>
        have behind : text.toList.drop (position + 1) = rest := by
          rw [← List.tail_drop, left, List.tail_cons]
        cases rest with
        | nil => simp only [behind, ite_self]
        | cons d rest =>
            have apart : ¬((isSmall c || isAsciiDigit c) = true ∧ isCapital d = true) :=
              fun both => unpaired [c] [d] rest left ⟨c, d, rfl, rfl, both⟩
            simp only [behind]
            by_cases first : (isSmall c || isAsciiDigit c) = true
            · rw [if_pos first, if_neg fun second => apart ⟨first, second⟩]
            · rw [if_neg first]

section
variable {text : Array Char} {groups : Nat → Nat × Nat} {position taken : Nat}

/-- What is tried behind a row of capitals: a capital and a small letter as the second group. -/
def wordEnd (text : Array Char) (groups : Nat → Nat × Nat) : Continuation := fun cursor =>
  (Node.capture 2 (.seq (.set false capitalItems) (.set false [.range 97 122]))).matchThen text
    groups {} { cursor with ends := (1, cursor.position) :: cursor.ends } some

/-- The cursor that has taken so many characters of the first group. -/
def inRow (position taken : Nat) : Cursor :=
  Cursor.advanced { position, starts := [(1, position)] } taken

theorem wordEnd_found {d e : Char} {rest : List Char}
    (left : text.toList.drop (position + taken) = d :: e :: rest) (capital : isCapital d = true)
    (small : isSmall e = true) :
    wordEnd text groups (inRow position taken) = some (.behindPair position taken 2) := by
  have behind : text.toList.drop (position + taken + 1) = e :: rest := by
    rw [← List.tail_drop, left, List.tail_cons]
  simp only [wordEnd, inRow, matchThen_seq, matchThen_capture,
    matchThen_set fun c => (inSet_words c).1, matchThen_set fun c => (inSet_words c).2.1,
    Cursor.left, Cursor.advanced, left, behind, capital, small]
  rfl

theorem wordEnd_absent
    (unpaired : ∀ d e rest, text.toList.drop (position + taken) = d :: e :: rest →
      ¬(isCapital d = true ∧ isSmall e = true)) :
    wordEnd text groups (inRow position taken) = none := by
  simp only [wordEnd, inRow, matchThen_seq, matchThen_capture,
    matchThen_set fun c => (inSet_words c).1, matchThen_set fun c => (inSet_words c).2.1,
    Cursor.left, Cursor.advanced]
  cases left : text.toList.drop (position + taken) with
  | nil => rfl
  | cons d rest =>
      have behind : text.toList.drop (position + taken + 1) = rest := by
        rw [← List.tail_drop, left, List.tail_cons]
      cases rest with
      | nil => simp only [behind, ite_self]
      | cons e rest =>
          have apart := unpaired d e rest left
          simp only [behind]
          by_cases capital : isCapital d = true
          · rw [if_pos capital, if_neg fun small => apart ⟨capital, small⟩]
          · rw [if_neg capital]

theorem wordPattern_matchAt? (text : Array Char) (position : Nat) :
    ∃ groups, wordPattern.matchAt? text false position =
      let count := ((text.toList.drop position).takeWhile isCapital).length
      if count < 1 then none else tryDown (inRow position 0) 1 (wordEnd text groups) count := by
  refine ⟨fun index => (wordPattern.groupWidths[index - 1]?).getD (0, 0), ?_⟩
  simp only [matchAt?, wordPattern, matchThen_seq,
    matchThen_repeated_set fun c => (inSet_words c).1, matchThen_capture 1]
  rfl

end

/-- The row of capitals runs up to the small letter, so that one capital is given back, and no more:
    with less than that the small letter would have to be a capital. -/
theorem wordPattern_matches : MatchesPairs wordPattern WordPair where
  moves pair := pair.1
  found := by
    rintro text position u v rest left ⟨some, capitals, d, e, rfl, capital, small⟩
    have row : (text.toList.drop position).takeWhile isCapital = u ++ [d] := by
      have whole : ∀ c ∈ u ++ [d], isCapital c = true := by
        intro c member
        cases List.mem_append.mp member with
        | inl before => exact capitals c before
        | inr last => rwa [List.mem_singleton.mp last]
      have same : text.toList.drop position = (u ++ [d]) ++ e :: rest := by simp [left]
      rw [same, List.takeWhile_append_of_pos whole, List.takeWhile_cons_of_neg]
      · simp
      · simp [not_capital_of_small small]
    have behind : text.toList.drop (position + u.length) = d :: e :: rest := by
      rw [← List.drop_drop, left, List.drop_left]
      rfl
    have one := List.length_pos_iff.mpr some
    obtain ⟨groups, matched⟩ := wordPattern_matchAt? text position
    rw [matched, row]
    simp only [List.length_append, List.length_singleton]
    rw [if_neg (by omega)]
    apply tryDown_eq one (Nat.le_succ u.length) (wordEnd_found behind capital small)
    intro more above below
    obtain rfl : more = u.length + 1 := by omega
    apply wordEnd_absent
    intro d' e' rest' left' isPair
    have next : text.toList.drop (position + (u.length + 1)) = e :: rest := by
      rw [← Nat.add_assoc, ← List.tail_drop, behind, List.tail_cons]
    obtain ⟨rfl, -⟩ := List.cons.inj (next.symm.trans left')
    exact absurd isPair.1 (by simp [not_capital_of_small small])
  absent := by
    intro text position unpaired
    obtain ⟨groups, matched⟩ := wordPattern_matchAt? text position
    rw [matched, ← Option.not_isSome_iff_eq_none]
    intro found
    simp only at found
    split at found
    · nomatch found
    obtain ⟨taken, one, most, found⟩ := Takes.tryDown_isSome.mp found
    have none : wordEnd text groups (inRow position taken) = none := by
      apply wordEnd_absent
      rintro d e rest left ⟨capital, small⟩
      refine unpaired ((text.toList.drop position).take taken) [d, e] rest ?_ ⟨?_, ?_, ?_⟩
      · rw [List.cons_append, List.singleton_append, ← left, ← List.drop_drop,
          List.take_append_drop]
      · have length := congrArg List.length left
        simp only [List.length_drop, List.length_cons] at length
        rw [← List.length_pos_iff, List.length_take, List.length_drop]
        omega
      · have inRow : (text.toList.drop position).take taken <+:
            (text.toList.drop position).takeWhile isCapital :=
          List.prefix_of_prefix_length_le (List.take_prefix _ _) (List.takeWhile_prefix _)
            (Nat.le_trans (List.length_take_le _ _) most)
        exact fun c member => List.mem_takeWhile_imp (inRow.subset member)
      · exact ⟨d, e, rfl, capital, small⟩
    have here : (inRow position 0).advanced taken = inRow position taken := rfl
    rw [here, none] at found
    nomatch found

/-! ## Cutting as the passes do -/

theorem divided_row {u rest : List Char} {d e : Char} (capitals : ∀ c ∈ u, isCapital c = true)
    (some : u ≠ []) (capital : isCapital d = true) (small : isSmall e = true) :
    divided rowEnds (u ++ d :: e :: rest) = u ++ '_' :: d :: e :: divided rowEnds rest := by
  induction u with
  | nil => exact absurd rfl some
  | cons c u ih =>
      obtain ⟨first, others⟩ := List.forall_mem_cons.mp capitals
      cases u with
      | nil =>
          have ends : rowEnds c d (.some e) = true := by simp [rowEnds, first, capital, small]
          have inside : rowEnds d e rest.head? = false := by
            simp [rowEnds, not_capital_of_small small]
          have behind (d : Char) (after : Option Char) : rowEnds e d after = false := by
            simp [rowEnds, not_capital_of_small small]
          rw [List.singleton_append, divided_cut ends, divided_kept inside, divided_behind behind]
          rfl
      | cons c' u =>
          have next : ∃ c'' after, u ++ d :: e :: rest = c'' :: after ∧ isCapital c'' = true := by
            cases u with
            | nil => exact ⟨d, _, rfl, capital⟩
            | cons c'' u => exact ⟨c'', _, rfl, others c'' (by simp)⟩
          have goesOn : rowEnds c c' (u ++ d :: e :: rest).head? = false := by
            obtain ⟨c'', after, same, follows⟩ := next
            rw [same]
            simp [rowEnds, (capital_apart follows).1]
          rw [List.cons_append, List.cons_append, divided_kept goesOn]
          exact congrArg (c :: ·) (ih others (List.cons_ne_nil _ _))

theorem replaceAll_humps (cs : List Char) :
    humpPattern.replaceAll parted cs = divided hump cs := by
  apply replaceAll_pairs humpPattern_matches rfl
  · rintro u v rest ⟨c, d, rfl, rfl, first, second⟩
    have begins : hump c d rest.head? = true := by rw [hump, first, second]; rfl
    have inside (e : Char) (after : Option Char) : hump d e after = false := by
      simp [hump, capital_apart second]
    have cut : divided hump (c :: d :: rest) = c :: '_' :: divided hump (d :: rest) :=
      divided_cut begins
    rw [divided_behind inside] at cut
    exact cut
  · intro c rest unpaired
    cases rest with
    | nil => rfl
    | cons d rest =>
        apply divided_kept
        rw [← Bool.not_eq_true, hump, Bool.and_eq_true_iff]
        rintro ⟨first, second⟩
        exact unpaired [c] [d] rest rfl ⟨c, d, rfl, rfl, first, second⟩

theorem replaceAll_rows (cs : List Char) :
    wordPattern.replaceAll parted cs = divided rowEnds cs := by
  apply replaceAll_pairs wordPattern_matches rfl
  · rintro u v rest ⟨some, capitals, d, e, rfl, capital, small⟩
    have cut : divided rowEnds (u ++ d :: e :: rest) = u ++ '_' :: d :: e :: divided rowEnds rest :=
      divided_row capitals some capital small
    simpa using cut
  · intro c rest unpaired
    cases rest with
    | nil => rfl
    | cons d rest =>
        apply divided_kept
        rw [← Bool.not_eq_true]
        intro ends
        simp only [rowEnds, Bool.and_eq_true_iff, Option.any_eq_true] at ends
        obtain ⟨⟨first, second⟩, e, follows, small⟩ := ends
        obtain ⟨after, rfl⟩ := List.head?_eq_some_iff.mp follows
        exact unpaired [c] [d, e] after rfl
          ⟨List.cons_ne_nil c [], by simpa using first, d, e, rfl, second, small⟩

/-! ## Names in lower case -/

theorem mem_divided {cs : List Char} {c : Char} (member : c ∈ divided apart cs) :
    c = '_' ∨ c ∈ cs := by
  fun_induction divided apart cs with
  | case1 c' d rest begins ih =>
      simp only [List.mem_cons] at member ih ⊢
      rcases member with rfl | rfl | later
      · exact .inr (.inl rfl)
      · exact .inl rfl
      · exact (ih later).imp id .inr
  | case2 c' d rest joined ih =>
      simp only [List.mem_cons] at member ih ⊢
      rcases member with rfl | later
      · exact .inr (.inl rfl)
      · exact (ih later).imp id .inr
  | case3 => exact .inr member

/-- Without capitals there is one word. -/
theorem divided_uncut {cs : List Char} (small : ∀ c ∈ cs, isCapital c = false) :
    divided wordBegins cs = cs := by
  fun_induction divided wordBegins cs with
  | case1 c d rest begins ih =>
      have joined : isCapital d = false := small d (by simp)
      simp [wordBegins, joined] at begins
  | case2 c d rest joined ih => rw [ih fun e member => small e (List.mem_cons_of_mem c member)]
  | case3 => rfl

/-- A small letter of ASCII is one of ASCII, no capital, and its own small letter. -/
theorem lowerChar_ascii {c : Char} (ascii : c.toNat < 128) :
    (lowerChar c).toNat < 128 ∧ isCapital (lowerChar c) = false ∧
      lowerChar (lowerChar c) = lowerChar c :=
  forall_ascii (p := fun c => (lowerChar c).toNat < 128 ∧ isCapital (lowerChar c) = false ∧
    lowerChar (lowerChar c) = lowerChar c) (by decide +kernel) ascii

theorem snakeCase_eq (s : String) :
    snakeCase s = lower (String.ofList (divided wordBegins s.toList)) := by
  rw [snakeCase, replaceAll_rows, replaceAll_humps, divided_twice]

/-- Splitting into words is one pass over a name. An underscore goes in front of each capital that a
    small letter or a digit stands before, or a capital with a small letter on the other side, all
    of ASCII; the rest stays as it is, and then all of it is put into lower case. A name of ASCII
    that was split is not split any further. The two patterns are those that are read from their
    sources. -/
theorem snakeCase_divided (s : String) :
    snakeCase s = lower (String.ofList (divided wordBegins s.toList)) ∧
      ((∀ c ∈ s.toList, c.toNat < 128) → snakeCase (snakeCase s) = snakeCase s) ∧
      Pattern.read "([A-Z]+)([A-Z][a-z])" = .ok wordPattern ∧
      Pattern.read "([a-z0-9])([A-Z])" = .ok humpPattern := by
  refine ⟨snakeCase_eq s, ?_, by decide +kernel, by decide +kernel⟩
  intro ascii
  have inside : ∀ c ∈ divided wordBegins s.toList, c.toNat < 128 := by
    intro c member
    rcases mem_divided member with rfl | old
    · decide
    · exact ascii c old
  have small : (snakeCase s).toList = (divided wordBegins s.toList).map lowerChar := by
    rw [snakeCase_eq, lower, String.toList_ofList, String.toList_ofList, lowerAfter_ascii inside]
  have known : ∀ c ∈ (snakeCase s).toList,
      c.toNat < 128 ∧ isCapital c = false ∧ lowerChar c = c := by
    rw [small]
    exact List.forall_mem_map.mpr fun c member => lowerChar_ascii (inside c member)
  have same : (snakeCase s).toList.map lowerChar = (snakeCase s).toList :=
    (List.map_congr_left fun c member => (known c member).2.2).trans (List.map_id' _)
  rw [snakeCase_eq (snakeCase s), divided_uncut fun c member => (known c member).2.1, lower,
    String.toList_ofList, lowerAfter_ascii fun c member => (known c member).1, same,
    String.ofList_toList]

theorem snakeCase_divided_sample :
    snakeCase "HTTPServer2Rule" = lower "HTTP_Server2_Rule" ∧
      snakeCase (snakeCase "HTTPServer2Rule") = snakeCase "HTTPServer2Rule" := by
  obtain ⟨once, again, -⟩ := snakeCase_divided "HTTPServer2Rule"
  exact ⟨once.trans (congrArg lower (by decide)), again (by decide)⟩

end FieldRules.Text
