import FieldRules.Proofs.Json.Grammar
import Mathlib.Data.List.TakeWhile

/-! # Recognition of strings in JSON

Reading takes tokens off the front of a text. A token of the grammar is taken, whatever follows, and
what is taken is a token of the grammar.
-/

namespace FieldRules.Json

open FieldRules.Number FieldRules.Text

/-! ## Blanks -/

theorem isGap_iff {c : Char} : isGap c = true ↔ c ∈ [' ', '\t', '\n', '\r'] := by
  simp [isGap, or_assoc]

theorem Gap.nil : Gap [] := List.forall_mem_nil _

theorem dropGap_gap {gap : List Char} (blank : Gap gap) (cs : List Char) :
    dropGap (gap ++ cs) = dropGap cs :=
  List.dropWhile_append_of_pos fun c member => isGap_iff.mpr (blank c member)

theorem dropGap_cons {c : Char} (solid : isGap c = false) (cs : List Char) :
    dropGap (c :: cs) = c :: cs :=
  List.dropWhile_cons_of_neg (by simp [solid])

theorem dropGap_parts (cs : List Char) : ∃ gap, Gap gap ∧ gap ++ dropGap cs = cs :=
  ⟨cs.takeWhile isGap, fun _ member => isGap_iff.mp (List.mem_takeWhile_imp member),
    List.takeWhile_append_dropWhile⟩

/-! ## Outcomes -/

/-- What reading at a text of a dialect comes to, with the rest of the text behind it: all of it is
taken, or the dialect allows a whole number that is too long. -/
inductive Comes (d : Dialect) (rest : List Char) {α : Type} :
    Except ReadFault (α × List Char) → Prop where
  | read (a : α) : Comes d rest (.ok (a, rest))
  | long {count : Nat} (fits : d.Fits count) (beyond : digitLimit < count) :
      Comes d rest (.error (.tooManyDigits count))

/-- What reading off the front of a text can come to: it takes a part of a kind, or it stops at a
number that is too long, with a text of another kind before it. -/
inductive Finds (good opens : List Char → Prop) (cs : List Char) {α : Type} :
    Except ReadFault (α × List Char) → Prop where
  | read {a : α} {front after : List Char} (same : cs = front ++ after) (part : good front) :
      Finds good opens cs (.ok (a, after))
  | malformed : Finds good opens cs (.error .malformed)
  | long {count : Nat} {front back : List Char} (same : cs = front ++ back) (before : opens front)
      (begins : BeginsLong count back) : Finds good opens cs (.error (.tooManyDigits count))

variable {α β : Type}

theorem Comes.bind {d : Dialect} {between rest : List Char}
    {first : Except ReadFault (α × List Char)} (comes : Comes d between first)
    {next : α × List Char → Except ReadFault (β × List Char)}
    (later : ∀ a, Comes d rest (next (a, between))) : Comes d rest (first >>= next) := by
  cases comes with
  | read a => exact later a
  | long fits beyond => exact .long fits beyond

/-- Where no whole number is too long, all is taken. -/
theorem Comes.limited {rest : List Char} {result : Except ReadFault (α × List Char)}
    (comes : Comes .limited rest result) : ∃ a, result = .ok (a, rest) := by
  cases comes with
  | read a => exact ⟨a, rfl⟩
  | long fits beyond => exact absurd fits (Nat.not_le.mpr beyond)

namespace Finds

variable {good opens : List Char → Prop} {cs rest : List Char}
  {first : Except ReadFault (α × List Char)}

/-- What is found behind a front is found with it. -/
theorem after (front : List Char) {good' opens' : List Char → Prop} (same : cs = front ++ rest)
    (finds : Finds good opens rest first) (parts : ∀ part, good part → good' (front ++ part))
    (stops : ∀ part, opens part → opens' (front ++ part)) : Finds good' opens' cs first := by
  cases finds with
  | read inner part =>
      refine .read ?_ (parts _ part)
      rw [same, inner, List.append_assoc]
  | malformed => exact .malformed
  | long inner before begins =>
      refine .long ?_ (stops _ before) begins
      rw [same, inner, List.append_assoc]

theorem bind {good' opens' : List Char → Prop} (finds : Finds good opens cs first)
    {next : α × List Char → Except ReadFault (β × List Char)}
    (stops : ∀ part, opens part → opens' part)
    (later : ∀ a part after, cs = part ++ after → good part →
      Finds good' opens' cs (next (a, after))) : Finds good' opens' cs (first >>= next) := by
  cases finds with
  | read same part => exact later _ _ _ same part
  | malformed => exact .malformed
  | long same before begins => exact .long same (stops _ before) begins

theorem map (f : α → β) (finds : Finds good opens cs first) :
    Finds good opens cs (first >>= fun taken => .ok (f taken.1, taken.2)) :=
  finds.bind (fun _ => id) fun _ _ _ same part => .read same part

end Finds

/-! ## Words -/

theorem takeWord?_same {word cs after : List Char} (taken : takeWord? word cs = some after) :
    cs = word ++ after := by
  induction word generalizing cs with
  | nil => exact Option.some.inj taken
  | cons w word ih =>
      cases cs with
      | nil => nomatch taken
      | cons c cs =>
          simp only [takeWord?] at taken
          split at taken
          · rename_i same
            rw [same, ih taken, List.cons_append]
          · nomatch taken

/-! ## Strings -/

theorem hexValue?_some_iff {c : Char} : (∃ value, hexValue? c = some value) ↔ HexDigit c := by
  unfold hexValue? HexDigit
  split_ifs <;> simp_all

theorem takeCode?_digits {a b c d : Char} (first : HexDigit a) (second : HexDigit b)
    (third : HexDigit c) (fourth : HexDigit d) (rest : List Char) :
    ∃ code, takeCode? (a :: b :: c :: d :: rest) = some (code, rest) := by
  obtain ⟨m, ofFirst⟩ := hexValue?_some_iff.mpr first
  obtain ⟨n, ofSecond⟩ := hexValue?_some_iff.mpr second
  obtain ⟨o, ofThird⟩ := hexValue?_some_iff.mpr third
  obtain ⟨p, ofFourth⟩ := hexValue?_some_iff.mpr fourth
  exact ⟨((m * 16 + n) * 16 + o) * 16 + p,
    by simp only [takeCode?, ofFirst, ofSecond, ofThird, ofFourth]⟩

/-- A code is four digits, and the text of a string may stand behind them. -/
theorem takeCode?_part {cs after : List Char} {code : Nat}
    (taken : takeCode? cs = some (code, after)) :
    ∃ part, cs = part ++ after ∧ ∀ more, Chars more → Chars ('\\' :: 'u' :: (part ++ more)) := by
  unfold takeCode? at taken
  split at taken
  · rename_i a b c d rest
    split at taken
    · rename_i ofFirst ofSecond ofThird ofFourth
      obtain ⟨-, rfl⟩ := Prod.mk.inj (Option.some.inj taken)
      exact ⟨[a, b, c, d], rfl, fun more chars =>
        .code (hexValue?_some_iff.mp ⟨_, ofFirst⟩) (hexValue?_some_iff.mp ⟨_, ofSecond⟩)
          (hexValue?_some_iff.mp ⟨_, ofThird⟩) (hexValue?_some_iff.mp ⟨_, ofFourth⟩) chars⟩
    · nomatch taken
  · nomatch taken

/-- An escape by number is one code or two. Only what looks like a second one can be at fault. -/
theorem takeNumberEscape?_cases {cs rest : List Char} {code : Nat}
    (taken : takeCode? cs = some (code, rest)) :
    takeNumberEscape? cs = some (codeChar code, rest) ∨
      ∃ more, rest = '\\' :: 'u' :: more ∧
        (takeCode? more = none ∧ takeNumberEscape? cs = none ∨
          ∃ low after, takeCode? more = some (low, after) ∧
            takeNumberEscape? cs = some (pairedChar code low, after)) := by
  simp only [takeNumberEscape?, taken]
  split
  · split
    · rename_i more
      split
      · rename_i refused
        exact .inr ⟨more, rfl, .inl ⟨refused, rfl⟩⟩
      · rename_i low after second
        split
        · exact .inr ⟨more, rfl, .inr ⟨low, after, second, rfl⟩⟩
        · exact .inl rfl
    · exact .inl rfl
  · exact .inl rfl

theorem takeNumberEscape?_part {cs after : List Char} {c : Char}
    (taken : takeNumberEscape? cs = some (c, after)) :
    ∃ part, cs = part ++ after ∧ ∀ more, Chars more → Chars ('\\' :: 'u' :: (part ++ more)) := by
  cases first : takeCode? cs with
  | none =>
      simp only [takeNumberEscape?, first] at taken
      cases taken
  | some found =>
      obtain ⟨part, same, chars⟩ := takeCode?_part first
      rcases takeNumberEscape?_cases first with
        alone | ⟨more, begins, ⟨_, refused⟩ | ⟨low, rest, second, pair⟩⟩
      · obtain ⟨-, rfl⟩ := Prod.mk.inj (Option.some.inj (alone.symm.trans taken))
        exact ⟨part, same, chars⟩
      · cases refused.symm.trans taken
      · obtain ⟨-, rfl⟩ := Prod.mk.inj (Option.some.inj (pair.symm.trans taken))
        obtain ⟨other, rfl, inner⟩ := takeCode?_part second
        refine ⟨part ++ '\\' :: 'u' :: other, by simp [same, begins], fun more further => ?_⟩
        rw [List.append_assoc]
        exact chars _ (inner more further)

/-- What begins like an escape by number in a string is one. -/
theorem Chars.number_escape {cs rest more : List Char} (chars : Chars cs)
    (same : cs ++ '"' :: rest = '\\' :: 'u' :: more) :
    ∃ code inner, Chars inner ∧ inner.length < cs.length ∧
      takeCode? more = some (code, inner ++ '"' :: rest) := by
  cases chars with
  | nil => nomatch same
  | plain visible noQuote noEscape chars => exact absurd (List.cons.inj same).1 noEscape
  | letter known chars =>
      obtain rfl := (List.cons.inj (List.cons.inj same).2).1
      exact absurd known (by decide)
  | @code a b c d inner first second third fourth chars =>
      obtain rfl := (List.cons.inj (List.cons.inj same).2).2
      obtain ⟨code, taken⟩ := takeCode?_digits first second third fourth (inner ++ '"' :: rest)
      exact ⟨code, inner, chars, by simp only [List.length_cons]; omega, taken⟩

/-- Behind an escape by number the string goes on, also where two codes are one character. -/
theorem takeNumberEscape?_taken {a b c d : Char} (first : HexDigit a) (second : HexDigit b)
    (third : HexDigit c) (fourth : HexDigit d) {cs : List Char} (chars : Chars cs)
    (rest : List Char) :
    ∃ found inner, Chars inner ∧ inner.length ≤ cs.length ∧
      takeNumberEscape? (a :: b :: c :: d :: (cs ++ '"' :: rest)) =
        some (found, inner ++ '"' :: rest) := by
  obtain ⟨code, taken⟩ := takeCode?_digits first second third fourth (cs ++ '"' :: rest)
  rcases takeNumberEscape?_cases taken with alone | ⟨more, begins, outcome⟩
  · exact ⟨_, cs, chars, Nat.le_refl _, alone⟩
  · obtain ⟨low, inner, further, shorter, next⟩ := chars.number_escape begins
    rcases outcome with ⟨refused, _⟩ | ⟨other, after, second, pair⟩
    · cases refused.symm.trans next
    · obtain ⟨-, rfl⟩ := Prod.mk.inj (Option.some.inj (second.symm.trans next))
      exact ⟨_, inner, further, Nat.le_of_lt shorter, pair⟩

theorem letterEscape?_some_iff {c : Char} :
    (∃ value, letterEscape? c = some value) ↔ c ∈ ['"', '\\', '/', 'b', 'f', 'n', 'r', 't'] := by
  unfold letterEscape?
  split <;> simp_all

theorem Chars.taken {cs : List Char} (chars : Chars cs) {fuel : Nat} (enough : cs.length < fuel)
    (rest : List Char) : ∃ found, takeChars fuel (cs ++ '"' :: rest) = .ok (found, rest) := by
  induction fuel generalizing cs with
  | zero => exact absurd enough (Nat.not_lt_zero _)
  | succ fuel ih =>
      cases chars with
      | nil => exact ⟨[], rfl⟩
      | @plain c cs visible noQuote noEscape more =>
          obtain ⟨found, taken⟩ := ih more (Nat.lt_of_succ_lt_succ enough)
          have shown : (c.toNat < 32 || c = '\\') = false := by
            simp [noEscape, Nat.not_lt.mpr visible]
          refine ⟨c :: found, ?_⟩
          rw [List.cons_append, takeChars]
          · rw [shown, taken]
            rfl
          · exact noQuote
          · exact fun _ same => absurd same noEscape
          · exact fun _ _ same => absurd same noEscape
      | @letter c cs known more =>
          obtain ⟨value, escaped⟩ := letterEscape?_some_iff.mpr known
          obtain ⟨found, taken⟩ := ih more (by simp only [List.length_cons] at enough; omega)
          refine ⟨value :: found, ?_⟩
          rw [List.cons_append, List.cons_append, takeChars]
          · rw [escaped, taken]
            rfl
          · rintro rfl
            exact absurd known (by decide)
      | code first second third fourth more =>
          obtain ⟨value, inner, chars, shorter, escaped⟩ :=
            takeNumberEscape?_taken first second third fourth more rest
          obtain ⟨found, taken⟩ := ih chars (by simp only [List.length_cons] at enough; omega)
          refine ⟨value :: found, ?_⟩
          simp only [List.cons_append]
          rw [takeChars, escaped]
          simp only [taken]
          rfl

theorem takeString_taken {cs : List Char} (chars : Chars cs) (rest : List Char) :
    ∃ s, takeString (cs ++ '"' :: rest) = .ok (s, rest) := by
  have enough : cs.length < (cs ++ '"' :: rest).length + 1 := by
    simp only [List.length_append]
    omega
  obtain ⟨found, taken⟩ := chars.taken enough rest
  refine ⟨String.ofList found, ?_⟩
  rw [takeString, taken]
  rfl

/-- The text of a string and its closing quote. -/
def Closed (cs : List Char) : Prop := ∃ inner, Chars inner ∧ cs = inner ++ ['"']

theorem takeChars_finds (fuel : Nat) (cs : List Char) :
    Finds Closed (fun _ => False) cs (takeChars fuel cs) := by
  induction fuel generalizing cs with
  | zero => exact .malformed
  | succ fuel ih =>
      have goOn (c : Char) (front : List Char) {rest : List Char} (same : cs = front ++ rest)
          (chars : ∀ more, Chars more → Chars (front ++ more)) :
          Finds Closed (fun _ => False) cs
            (takeChars fuel rest >>= fun taken => .ok (c :: taken.1, taken.2)) := by
        refine .after front same ((ih rest).map (c :: ·)) ?_ fun _ => id
        rintro _ ⟨inner, more, rfl⟩
        exact ⟨front ++ inner, chars inner more, (List.append_assoc ..).symm⟩
      simp only [takeChars]
      split
      · exact .malformed
      · exact .read rfl ⟨[], .nil, rfl⟩
      · split
        · exact .malformed
        · rename_i c after escaped
          obtain ⟨part, rfl, chars⟩ := takeNumberEscape?_part escaped
          exact goOn c ('\\' :: 'u' :: part) rfl chars
      · split
        · exact .malformed
        · rename_i c escaped
          exact goOn c ['\\', _] rfl fun more =>
            .letter (letterEscape?_some_iff.mp ⟨_, escaped⟩)
      · rename_i c rest noQuote _ _
        split
        · exact .malformed
        · rename_i shown
          simp only [Bool.or_eq_true, decide_eq_true_eq, not_or, Nat.not_lt] at shown
          exact goOn c [c] rfl fun more => .plain shown.1 noQuote shown.2

theorem takeString_finds (cs : List Char) :
    Finds Closed (fun _ => False) cs (takeString cs) :=
  (takeChars_finds _ cs).map String.ofList

end FieldRules.Json
