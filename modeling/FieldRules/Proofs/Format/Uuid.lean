import FieldRules.Format.Uuid
import FieldRules.Proofs.Number.Nearest
import FieldRules.Proofs.Text.Case
import FieldRules.Proofs.Text.Pieces
import FieldRules.Text.Quoted

/-! # The spellings of identifiers

An identifier is spelled by a literal of base sixteen that has 32 characters. Hyphens may stand
anywhere in it, braces around it, and the words of the scheme wherever they are; `Spells` says so
rule by rule, and the reader takes just these texts. Which bits of the number are the version is
said by `Versioned`.
-/

namespace FieldRules.Format.Uuid

open Text Number

/-! ## Words that are left out -/

/-- A text is gone through from the left, and the word is left out wherever it is met. -/
inductive Without (word : List Char) : List Char → List Char → Prop where
  | nil : Without word [] []
  | word {rest out : List Char} (more : Without word rest out) : Without word (word ++ rest) out
  | other {c : Char} {rest out : List Char} (different : ¬word <+: c :: rest)
      (more : Without word rest out) : Without word (c :: rest) (c :: out)

variable {word cs out : List Char}

theorem withoutWordIn_without (some : word ≠ []) {fuel : Nat} (short : cs.length < fuel) :
    Without word cs (withoutWordIn word fuel cs) := by
  induction fuel generalizing cs with
  | zero => omega
  | succ fuel ih =>
      cases cs with
      | nil => exact .nil
      | cons c rest =>
          simp only [List.length_cons] at short
          simp only [withoutWordIn]
          split
          · rename_i here
            obtain ⟨behind, split⟩ := List.isPrefixOf_iff_prefix.mp here
            have shorter : behind.length < fuel := by
              have lengths := congrArg List.length split
              have := List.length_pos_of_ne_nil some
              simp only [List.length_append, List.length_cons] at lengths
              omega
            rw [← split, List.drop_left]
            exact .word (ih shorter)
          · rename_i different
            exact .other (mt List.isPrefixOf_iff_prefix.mpr different) (ih (by omega))

theorem Without.eq (without : Without word cs out) (some : word ≠ []) {fuel : Nat}
    (short : cs.length < fuel) : withoutWordIn word fuel cs = out := by
  induction without generalizing fuel with
  | nil => cases fuel <;> rfl
  | @word rest out more ih =>
      have := List.length_pos_of_ne_nil some
      rw [List.length_append] at short
      obtain ⟨first, others, split⟩ :=
        List.exists_cons_of_ne_nil (l := word ++ rest) (by simp [some])
      have here : word.isPrefixOf (word ++ rest) = true :=
        List.isPrefixOf_iff_prefix.mpr (List.prefix_append _ _)
      cases fuel with
      | zero => omega
      | succ fuel =>
          rw [split] at here ⊢
          simp only [withoutWordIn, here, if_true]
          rw [← split, List.drop_left]
          exact ih (by omega)
  | @other c rest out different more ih =>
      cases fuel with
      | zero => omega
      | succ fuel =>
          simp only [List.length_cons] at short
          rw [withoutWordIn, if_neg (mt List.isPrefixOf_iff_prefix.mp different), ih (by omega)]

theorem withoutWord_iff {word : String} (some : word.toList ≠ []) :
    withoutWord word cs = out ↔ Without word.toList cs out := by
  constructor
  · rintro rfl
    exact withoutWordIn_without some (Nat.lt_succ_self _)
  · exact fun without => without.eq some (Nat.lt_succ_self _)

/-! ## Literals of base sixteen -/

/-- A row of hexadecimal digits with at most one underscore between two. -/
inductive HexRow : List Char → Nat → Prop where
  | digit {c : Char} {value : Nat} (read : hexValue? c = some value) : HexRow [c] value
  | next {row gap : List Char} {c : Char} {n value : Nat} (before : HexRow row n)
      (apart : gap = [] ∨ gap = ['_']) (read : hexValue? c = some value) :
      HexRow (row ++ gap ++ [c]) (16 * n + value)

/-- The mark of the base, which one underscore may follow. -/
inductive BaseMark : List Char → Prop where
  | none : BaseMark []
  | given {x : Char} {gap : List Char} (letter : x = 'x' ∨ x = 'X')
      (apart : gap = [] ∨ gap = ['_']) : BaseMark ('0' :: x :: gap)

/-- A sign; a minus stands before zero only. -/
inductive Sign (n : Nat) : List Char → Prop where
  | none : Sign n []
  | plus : Sign n ['+']
  | minus (zero : n = 0) : Sign n ['-']

/-- A literal of base sixteen between blanks, in ASCII form. -/
inductive HexLiteral : List Char → Nat → Prop where
  | mk {before sign mark row after : List Char} {n : Nat}
      (blankBefore : ∀ c ∈ before, isAsciiBlank c = true)
      (blankAfter : ∀ c ∈ after, isAsciiBlank c = true) (signed : Sign n sign)
      (marked : BaseMark mark) (digits : HexRow row n) :
      HexLiteral (before ++ (sign ++ (mark ++ row)) ++ after) n

/-- The characters of literals, blanks apart. -/
def literalMarks : List Char := ['_', '+', '-', 'x', 'X']

theorem hexValue?_lt {c : Char} {value : Nat} (read : hexValue? c = some value) : value < 16 := by
  simp only [hexValue?] at read
  split at read
  · rename_i digit
    have code := isAsciiDigit_iff.mp digit
    obtain rfl := Option.some.inj read
    omega
  · split at read
    · rename_i letter
      have code : c.toLower.toNat ≤ 102 := UInt32.le_iff_toNat_le.mp letter.2
      obtain rfl := Option.some.inj read
      omega
    · nomatch read

theorem HexRow.chars {row : List Char} {n : Nat} (digits : HexRow row n) :
    ∀ c ∈ row, (hexValue? c).isSome = true ∨ c = '_' := by
  have read {c : Char} {value : Nat} (read : hexValue? c = some value) :
      (hexValue? c).isSome = true := by rw [read]; rfl
  induction digits with
  | digit given =>
      intro c member
      obtain rfl := List.mem_singleton.mp member
      exact .inl (read given)
  | next _ apart given ih =>
      intro c member
      rcases List.mem_append.mp member with member | last
      · rcases List.mem_append.mp member with inRow | inGap
        · exact ih c inRow
        · rcases apart with rfl | rfl
          · nomatch inGap
          · exact .inr (List.mem_singleton.mp inGap)
      · obtain rfl := List.mem_singleton.mp last
        exact .inl (read given)

theorem HexRow.lt {row : List Char} {n : Nat} (digits : HexRow row n) : n < 16 ^ row.length := by
  induction digits with
  | digit read => simpa using hexValue?_lt read
  | @next row gap c n value _ _ read ih =>
      have small := hexValue?_lt read
      have grows : 16 ^ (row.length + 1) ≤ 16 ^ (row ++ gap ++ [c]).length :=
        Nat.pow_le_pow_right (by decide) (by simp)
      rw [Nat.pow_succ] at grows
      omega

/-- A row is read with what is to be read behind it. -/
theorem HexRow.taken {row : List Char} {n : Nat} (digits : HexRow row n) (rest : List Char) :
    hexRow? 0 false (row ++ rest) = hexRow? n true rest := by
  have step {c : Char} {value : Nat} (read : hexValue? c = some value) (sum : Nat) (after : Bool)
      (rest : List Char) :
      hexRow? sum after (c :: rest) = hexRow? (16 * sum + value) true rest := by
    have other : c ≠ '_' := by
      rintro rfl
      nomatch read
    simp only [hexRow?, other, if_false, read]
  induction digits generalizing rest with
  | digit read => simpa using step read 0 false rest
  | @next row gap c n value _ apart read ih =>
      rw [List.append_assoc, List.append_assoc, ih]
      rcases apart with rfl | rfl
      · exact step read n true rest
      · exact step read n false rest

/-- What is read of a text whose first part is a row: more digits, or digits behind an
    underscore. -/
theorem hexRow?_row {cs row : List Char} {sum n : Nat} (digits : HexRow row sum) :
    (hexRow? sum true cs = some n → HexRow (row ++ cs) n) ∧
      (hexRow? sum false cs = some n → HexRow (row ++ '_' :: cs) n) := by
  induction cs generalizing row sum with
  | nil =>
      refine ⟨fun read => ?_, fun read => nomatch read⟩
      obtain rfl := Option.some.inj read
      simpa using digits
  | cons c rest ih =>
      constructor
      · intro read
        simp only [hexRow?] at read
        split at read
        · rename_i underscore
          subst underscore
          exact (ih digits).2 (by simpa using read)
        · split at read
          · rename_i value given
            simpa using (ih (digits.next (.inl rfl) given)).1 read
          · nomatch read
      · intro read
        simp only [hexRow?] at read
        split at read
        · nomatch read
        · split at read
          · rename_i value given
            simpa using (ih (digits.next (.inr rfl) given)).1 read
          · nomatch read

theorem hexRow?_iff {row : List Char} {n : Nat} : hexRow? 0 false row = some n ↔ HexRow row n := by
  constructor
  · intro read
    cases row with
    | nil => nomatch read
    | cons c rest =>
        simp only [hexRow?] at read
        split at read
        · nomatch read
        · split at read
          · rename_i value given
            have first : HexRow [c] (16 * 0 + value) := by simpa using HexRow.digit given
            exact (hexRow?_row first).1 read
          · nomatch read
  · intro digits
    simpa [hexRow?] using digits.taken []

theorem withoutBaseMark_row {mark row : List Char} {n : Nat} (marked : BaseMark mark)
    (digits : HexRow row n) : withoutBaseMark (mark ++ row) = row := by
  have chars := digits.chars
  cases marked with
  | none =>
      simp only [List.nil_append]
      unfold withoutBaseMark
      split
      · rename_i x rest
        rcases chars x (by simp) with digit | rfl
        · have other : ¬(x = 'x' ∨ x = 'X') := by
            rintro (rfl | rfl) <;> nomatch digit
          simp [other]
        · rfl
      · rfl
  | @given x gap letter apart =>
      rcases apart with rfl | rfl
      · have unled : ∀ rest, row ≠ '_' :: rest := by
          rintro rest rfl
          nomatch hexRow?_iff.mpr digits
        simp only [List.cons_append, List.nil_append, withoutBaseMark]
        simp only [Bool.or_eq_true, decide_eq_true_eq, letter, if_true]
      · simp [withoutBaseMark, letter]

theorem withoutBaseMark_split (cs : List Char) :
    ∃ mark, BaseMark mark ∧ cs = mark ++ withoutBaseMark cs := by
  unfold withoutBaseMark
  split
  · rename_i x rest
    split
    · rename_i letter
      have letter : x = 'x' ∨ x = 'X' := by simpa using letter
      split
      · exact ⟨['0', x, '_'], .given letter (.inr rfl), rfl⟩
      · exact ⟨['0', x], .given letter (.inl rfl), rfl⟩
    · exact ⟨[], .none, rfl⟩
  · exact ⟨[], .none, rfl⟩

theorem takeSign_split {negative : Bool} {body : List Char}
    (taken : takeSign cs = (negative, body)) :
    ∃ sign, cs = sign ++ body ∧ ((sign = [] ∨ sign = ['+']) ∧ negative = false ∨
      sign = ['-'] ∧ negative = true) := by
  unfold takeSign at taken
  split at taken
  · obtain ⟨rfl, rfl⟩ := Prod.mk.inj taken
    exact ⟨['-'], rfl, .inr ⟨rfl, rfl⟩⟩
  · obtain ⟨rfl, rfl⟩ := Prod.mk.inj taken
    exact ⟨['+'], rfl, .inl ⟨.inr rfl, rfl⟩⟩
  · obtain ⟨rfl, rfl⟩ := Prod.mk.inj taken
    exact ⟨[], rfl, .inl ⟨.inl rfl, rfl⟩⟩

theorem HexRow.head {row : List Char} {n : Nat} (digits : HexRow row n) :
    ∃ c rest, row = c :: rest ∧ (hexValue? c).isSome = true := by
  induction digits with
  | digit read => exact ⟨_, [], rfl, by rw [read]; rfl⟩
  | @next row gap last n value _ _ _ ih =>
      obtain ⟨c, rest, rfl, digit⟩ := ih
      exact ⟨c, rest ++ gap ++ [last], rfl, digit⟩

theorem takeSign_sign {sign mark row : List Char} {n : Nat} (signed : Sign n sign)
    (marked : BaseMark mark) (digits : HexRow row n) :
    takeSign (sign ++ (mark ++ row)) = (decide (sign = ['-']), mark ++ row) := by
  cases signed with
  | none =>
      obtain ⟨c, rest, same, digit⟩ :
          ∃ c rest, mark ++ row = c :: rest ∧ (hexValue? c).isSome = true := by
        cases marked with
        | none => exact digits.head
        | given => exact ⟨'0', _, rfl, rfl⟩
      rw [List.nil_append, same]
      unfold takeSign
      split
      · rename_i front
        obtain rfl := (List.cons.inj front).1
        nomatch digit
      · rename_i front
        obtain rfl := (List.cons.inj front).1
        nomatch digit
      · rfl
  | plus | minus => rfl

/-- The characters of a literal without its blanks. -/
theorem literal_chars {sign mark row : List Char} {n : Nat} (signed : Sign n sign)
    (marked : BaseMark mark) (digits : HexRow row n) :
    ∀ c ∈ sign ++ (mark ++ row), (hexValue? c).isSome = true ∨ c ∈ literalMarks := by
  intro c member
  rcases List.mem_append.mp member with inSign | member
  · cases signed with
    | none => nomatch inSign
    | plus | minus =>
        obtain rfl := List.mem_singleton.mp inSign
        exact .inr (by decide)
  rcases List.mem_append.mp member with inMark | inRow
  · cases marked with
    | none => nomatch inMark
    | given letter apart =>
        simp only [List.mem_cons] at inMark
        rcases inMark with rfl | rfl | inGap
        · exact .inl rfl
        · rcases letter with rfl | rfl <;> exact .inr (by decide)
        · rcases apart with rfl | rfl
          · nomatch inGap
          · obtain rfl := List.mem_singleton.mp inGap
            exact .inr (by decide)
  · rcases digits.chars c inRow with digit | rfl
    · exact .inl digit
    · exact .inr (by decide)

/-- Whether a character is a brace. -/
def isBrace (c : Char) : Bool := c == '\x7b' || c == '\x7d'

theorem hexValue?_ascii {c : Char} (digit : (hexValue? c).isSome = true) : c.toNat < 128 := by
  by_contra wide
  have wide : 128 ≤ c.toNat := Nat.not_lt.mp wide
  have high : ¬c ≤ 'f' := by
    intro low
    have : c.toNat ≤ 102 := UInt32.le_iff_toNat_le.mp low
    omega
  simp [hexValue?, (not_ascii_of_wide wide).2, toLower_wide wide, high] at digit

theorem literal_solid {c : Char} (inside : (hexValue? c).isSome = true ∨ c ∈ literalMarks) :
    isAsciiBlank c = false ∧ isBrace c = false := by
  rcases inside with digit | mark
  · refine forall_ascii (p := fun c => (hexValue? c).isSome = true →
      isAsciiBlank c = false ∧ isBrace c = false) (by decide) (hexValue?_ascii digit) digit
  · have solid : ∀ c ∈ literalMarks, isAsciiBlank c = false ∧ isBrace c = false := by decide
    exact solid c mark

theorem hexLiteral?_iff {n : Nat} :
    hexLiteral? cs = some n ↔ HexLiteral (cs.map asciiForm) n := by
  constructor
  · intro read
    obtain ⟨before, after, split, blankBefore, blankAfter⟩ :=
      trim_around isAsciiBlank (cs.map asciiForm)
    rcases taken : takeSign (literalChars cs) with ⟨negative, body⟩
    obtain ⟨sign, signed, kind⟩ := takeSign_split taken
    obtain ⟨mark, marked, body_eq⟩ := withoutBaseMark_split body
    simp only [hexLiteral?, taken] at read
    cases row : hexRow? 0 false (withoutBaseMark body) with
    | none => simp [row] at read
    | some value =>
        simp only [row, Option.ite_none_left_eq_some, Option.some.injEq] at read
        obtain ⟨allowed, rfl⟩ := read
        have proper : Sign value sign := by
          rcases kind with ⟨rfl | rfl, rfl⟩ | ⟨rfl, rfl⟩
          · exact .none
          · exact .plus
          · exact .minus (by simpa using allowed)
        have whole : cs.map asciiForm =
            before ++ (sign ++ (mark ++ withoutBaseMark body)) ++ after := by
          rw [← body_eq, ← signed]
          exact split
        rw [whole]
        exact .mk blankBefore blankAfter proper marked (hexRow?_iff.mp row)
  · intro literal
    generalize whole : cs.map asciiForm = text at literal
    obtain ⟨blankBefore, blankAfter, signed, marked, digits⟩ := literal
    have solid := literal_chars signed marked digits
    have trimmed := trim_between blankBefore blankAfter fun c member =>
      (literal_solid (solid c member)).1
    rw [← whole] at trimmed
    simp only [hexLiteral?, literalChars, trimmed, takeSign_sign signed marked digits,
      withoutBaseMark_row marked digits, hexRow?_iff.mpr digits]
    cases signed with
    | none | plus => rfl
    | minus zero => simp [zero]

/-! ## Identifiers -/

/-- A text with the words of the scheme in it, braces around it and hyphens anywhere, whose other
    characters are a literal; there are 32 of them. -/
inductive Spells : List Char → Nat → Prop where
  | mk {cs unmarked before body after : List Char} {n : Nat}
      (urn : Without "urn:".toList cs unmarked)
      (uuid : Without "uuid:".toList unmarked (before ++ body ++ after))
      (bracesBefore : ∀ c ∈ before, isBrace c = true) (bracesAfter : ∀ c ∈ after, isBrace c = true)
      (count : (body.filter (· != '-')).length = 32)
      (literal : HexLiteral ((body.filter (· != '-')).map asciiForm) n) : Spells cs n

theorem HexLiteral.lt {n : Nat} (literal : HexLiteral cs n) : n < 16 ^ cs.length := by
  obtain ⟨_, _, _, _, digits⟩ := literal
  refine Nat.lt_of_lt_of_le digits.lt (Nat.pow_le_pow_right (by decide) ?_)
  simp only [List.length_append]
  omega

theorem HexLiteral.unbraced {n : Nat} (literal : HexLiteral (cs.map asciiForm) n) :
    ∀ c ∈ cs, isBrace c = false := by
  intro c member
  by_contra braced
  have form : asciiForm c = c ∧ isAsciiBlank c = false := by
    simp only [isBrace, Bool.or_eq_false_iff, not_and_or, beq_eq_false_iff_ne, ne_eq,
      Decidable.not_not] at braced
    rcases braced with rfl | rfl <;> decide
  have inside : c ∈ cs.map asciiForm := List.mem_map.mpr ⟨c, member, form.1⟩
  generalize cs.map asciiForm = text at literal inside
  obtain ⟨blankBefore, blankAfter, signed, marked, digits⟩ := literal
  have unblank (blank : isAsciiBlank c = true) : False := by simp [form.2] at blank
  rcases List.mem_append.mp inside with inside | inAfter
  · rcases List.mem_append.mp inside with inBefore | inside
    · exact unblank (blankBefore c inBefore)
    · exact braced (literal_solid (literal_chars signed marked digits c inside)).2
  · exact unblank (blankAfter c inAfter)

/-- The reader takes the texts that spell a number, and gives that number. -/
theorem read?_iff {s : String} {n : Nat} : read? s = some n ↔ Spells s.toList n := by
  constructor
  · intro read
    simp only [read?] at read
    split at read
    · rename_i count
      obtain ⟨literal, -⟩ := Option.filter_eq_some_iff.mp read
      obtain ⟨before, after, split, bracesBefore, bracesAfter⟩ :=
        trim_around isBrace (withoutWord "uuid:" (withoutWord "urn:" s.toList))
      have urn : Without "urn:".toList s.toList (withoutWord "urn:" s.toList) :=
        (withoutWord_iff (by decide)).mp rfl
      have uuid := (withoutWord_iff (by decide)).mp split
      exact .mk urn uuid bracesBefore bracesAfter count (hexLiteral?_iff.mp literal)
    · nomatch read
  · rintro ⟨urn, uuid, bracesBefore, bracesAfter, count, literal⟩
    rename_i body after
    have unbraced : ∀ c ∈ body, isBrace c = false := by
      intro c member
      by_cases hyphen : c = '-'
      · exact hyphen ▸ rfl
      · exact literal.unbraced c (List.mem_filter.mpr ⟨member, by simpa using hyphen⟩)
    have chars : numberChars s.toList = body.filter (· != '-') := by
      have trimmed := trim_between bracesBefore bracesAfter unbraced
      rw [numberChars, (withoutWord_iff (by decide)).mpr urn,
        (withoutWord_iff (by decide)).mpr uuid]
      exact congrArg (List.filter (· != '-')) trimmed
    have small : n < twoTo 128 := by
      have bounded := literal.lt
      rw [List.length_map, count] at bounded
      exact bounded
    simp only [read?, chars, count, if_true, hexLiteral?_iff.mpr literal, Option.filter_some,
      decide_eq_true small]

/-! ## Versions -/

/-- The number is of the variant that has versions, and its version is this one. -/
structure Versioned (n : Nat) (version : Int) : Prop where
  variant : n / twoTo 62 % 4 = 2
  version : ((n / twoTo 76 % 16 : Nat) : Int) = version

instance (n : Nat) (version : Int) : Decidable (Versioned n version) :=
  decidable_of_iff (n / twoTo 62 % 4 = 2 ∧ ((n / twoTo 76 % 16 : Nat) : Int) = version)
    ⟨fun ⟨variant, same⟩ => ⟨variant, same⟩, fun ⟨variant, same⟩ => ⟨variant, same⟩⟩

theorem version?_iff {n : Nat} {version : Int} :
    (version? n).map Int.ofNat = some version ↔ Versioned n version := by
  have bits : (n.testBit 63 && !n.testBit 62) = true ↔ n / twoTo 62 % 4 = 2 := by
    have upper : n / 2 ^ 63 = n / twoTo 62 / 2 := (Nat.div_div_eq_div_mul n (twoTo 62) 2).symm
    have lower : n / 2 ^ 62 = n / twoTo 62 := rfl
    rw [Nat.testBit_eq_decide_div_mod_eq, Nat.testBit_eq_decide_div_mod_eq, upper, lower]
    simp only [Bool.and_eq_true, decide_eq_true_eq, Bool.not_eq_true', decide_eq_false_iff_not]
    omega
  rw [version?]
  by_cases variant : n / twoTo 62 % 4 = 2
  · rw [if_pos (bits.mpr variant), Option.map_some, Option.some_inj]
    exact ⟨fun same => ⟨variant, same⟩, fun versioned => versioned.version⟩
  · rw [if_neg (mt bits.mp variant)]
    exact ⟨nofun, fun versioned => absurd versioned.variant variant⟩

end FieldRules.Format.Uuid
