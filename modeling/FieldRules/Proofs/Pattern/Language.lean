import FieldRules.Pattern.Matcher
import Mathlib.Computability.Language
import Mathlib.Data.List.TakeWhile

/-! # The words of a pattern

A part of a pattern that refers to no group and looks at nothing around it matches the words of a
language, which is put together from the languages of its parts. The matcher takes such a part just
if a word of the language stands at the cursor and the rest of the match succeeds behind it:
backtracking tries all words, and its fuel is enough as long as each round of a repetition takes
a character.
-/

namespace FieldRules.Pattern

open FieldRules.Text

/-- The words of one character that passes a test. -/
def single (test : Char → Bool) : Language Char := {w | ∃ c, test c = true ∧ w = [c]}

/-- The words that a part matches. -/
def Node.language (flags : Flags) : Node → Language Char
  | .empty => 1
  | .literal code negated => single (isLiteral flags code negated)
  | .any => single fun c => flags.dotAll || c != '\n'
  | .set negated items => single (inSet flags negated items)
  | .seq first second => first.language flags * second.language flags
  | .either first second => first.language flags + second.language flags
  | .scoped change body => body.language (flags.changed change)
  | .repeated _ least most body =>
    {w | ∃ count, least ≤ count ∧ (∀ bound ∈ most, count ≤ bound) ∧ w ∈ body.language flags ^ count}
  | _ => 0

/-- Whether a part is put together from characters by sequence, choice and repetition, and each
    round of a repetition takes a character. -/
def Node.isPlain : Node → Bool
  | .empty | .literal .. | .any | .set .. => true
  | .seq first second | .either first second => first.isPlain && second.isPlain
  | .scoped _ body => body.isPlain
  | .repeated greed least most body =>
    greed = .greedy && most.all (least ≤ ·) && body.isPlain && 0 < (body.width fun _ => (0, 0)).1
  | _ => false

/-! ## Words of single characters -/

theorem mem_single {test : Char → Bool} {w : List Char} :
    w ∈ single test ↔ ∃ c, test c = true ∧ w = [c] := Iff.rfl

theorem mem_single_pow {test : Char → Bool} {count : Nat} {w : List Char} :
    w ∈ single test ^ count ↔ w.length = count ∧ ∀ c ∈ w, test c = true := by
  induction count generalizing w with
  | zero =>
      rw [pow_zero, Language.mem_one, List.length_eq_zero_iff]
      exact ⟨fun empty => ⟨empty, by simp [empty]⟩, fun both => both.1⟩
  | succ count ih =>
      rw [pow_succ', Language.mem_mul]
      constructor
      · rintro ⟨_, ⟨c, passes, rfl⟩, rest, member, rfl⟩
        obtain ⟨length, all⟩ := ih.mp member
        exact ⟨by simp [length], List.forall_mem_cons.mpr ⟨passes, all⟩⟩
      · rintro ⟨length, all⟩
        cases w with
        | nil => simp at length
        | cons c rest =>
            obtain ⟨passes, others⟩ := List.forall_mem_cons.mp all
            exact ⟨[c], ⟨c, passes, rfl⟩, rest, ih.mpr ⟨by simpa using length, others⟩, rfl⟩

/-- A power of a language whose words are built from parts has words of so many parts. -/
theorem mem_pow_iff {language : Language Char} {part : List Char → Prop}
    {built : List Char → List Char} (each : ∀ w, w ∈ language ↔ ∃ v, part v ∧ w = built v)
    {count : Nat} {w : List Char} : w ∈ language ^ count ↔
      ∃ parts : List (List Char), parts.length = count ∧ (∀ v ∈ parts, part v) ∧
        w = parts.flatMap built := by
  induction count generalizing w with
  | zero =>
      rw [pow_zero, Language.mem_one]
      constructor
      · rintro rfl
        exact ⟨[], rfl, by simp, rfl⟩
      · rintro ⟨parts, none, _, rfl⟩
        rw [List.length_eq_zero_iff.mp none]
        rfl
  | succ count ih =>
      rw [pow_succ', Language.mem_mul]
      simp only [each, ih]
      constructor
      · rintro ⟨_, ⟨v, first, rfl⟩, _, ⟨parts, length, others, rfl⟩, rfl⟩
        exact ⟨v :: parts, congrArg (· + 1) length, List.forall_mem_cons.mpr ⟨first, others⟩, rfl⟩
      · rintro ⟨all, length, known, rfl⟩
        obtain ⟨v, parts, rfl⟩ := List.exists_cons_of_length_eq_add_one length
        obtain ⟨first, others⟩ := List.forall_mem_cons.mp known
        exact ⟨_, ⟨v, first, rfl⟩, _, ⟨parts, Nat.succ.inj length, others, rfl⟩, rfl⟩

section
variable (flags : Flags)

theorem Node.language_literal (code : Nat) (negated : Bool) :
    (Node.literal code negated).language flags = single (isLiteral flags code negated) := rfl

theorem Node.language_set (negated : Bool) (items : List SetItem) :
    (Node.set negated items).language flags = single (inSet flags negated items) := rfl

theorem Node.language_seq (first second : Node) :
    (Node.seq first second).language flags = first.language flags * second.language flags := rfl

theorem Node.language_either (first second : Node) :
    (Node.either first second).language flags = first.language flags + second.language flags := rfl

theorem Node.language_scoped (change : FlagChange) (body : Node) :
    (Node.scoped change body).language flags = body.language (flags.changed change) := rfl

end

theorem Node.language_charTest {flags : Flags} {node : Node} {test : Char → Bool}
    (found : node.charTest? flags = some test) : node.language flags = single test := by
  induction node generalizing flags with
  | literal | any | set =>
      obtain rfl := Option.some.inj found
      rfl
  | «scoped» change body ih => exact ih found
  | _ => nomatch found

theorem length_pow {language : Language Char} {low : Nat} (each : ∀ w ∈ language, low ≤ w.length)
    {count : Nat} {w : List Char} (member : w ∈ language ^ count) : low * count ≤ w.length := by
  induction count generalizing w with
  | zero => simp
  | succ count ih =>
      rw [pow_succ', Language.mem_mul] at member
      obtain ⟨u, first, v, others, rfl⟩ := member
      have here := each u first
      have there := ih others
      rw [Nat.mul_succ, List.length_append]
      omega

/-- A word is at least as long as the width of the part says. -/
theorem Node.width_le {flags : Flags} {groups : Nat → Nat × Nat} {node : Node} {w : List Char}
    (plain : node.isPlain = true) (member : w ∈ node.language flags) :
    (node.width groups).1 ≤ w.length := by
  induction node generalizing flags w with
  | empty => simp [width]
  | literal | any | set =>
      obtain ⟨c, _, rfl⟩ := member
      simp [width]
  | seq first second ihFirst ihSecond =>
      obtain ⟨u, inFirst, v, inSecond, rfl⟩ := Language.mem_mul.mp member
      obtain ⟨plainFirst, plainSecond⟩ := Bool.and_eq_true_iff.mp plain
      have before := ihFirst plainFirst inFirst
      have behind := ihSecond plainSecond inSecond
      simp only [width, List.length_append]
      omega
  | either first second ihFirst ihSecond =>
      obtain ⟨plainFirst, plainSecond⟩ := Bool.and_eq_true_iff.mp plain
      simp only [width]
      rcases (Language.mem_add _ _ _).mp member with here | there
      · have := ihFirst plainFirst here
        omega
      · have := ihSecond plainSecond there
        omega
  | «scoped» change body ih => exact ih plain member
  | repeated greed least most body ih =>
      obtain ⟨count, enough, _, rounds⟩ := member
      have plainBody : body.isPlain = true := by
        simp only [isPlain, Bool.and_eq_true] at plain
        exact plain.1.2
      have long := length_pow (fun w inside => ih plainBody inside) rounds
      have grows := Nat.mul_le_mul_left (body.width groups).1 enough
      simp only [width]
      omega
  | _ => nomatch plain

/-! ## Taking words -/

variable {text : Array Char}

/-- What is left of a text at a cursor. -/
def Cursor.left (cursor : Cursor) (text : Array Char) : List Char :=
  text.toList.drop cursor.position

theorem head_left {cursor : Cursor} : text[cursor.position]? = (cursor.left text).head? := by
  rw [Cursor.left, List.head?_drop, Array.getElem?_toList]

/-- Whether a step of a match tries just the words of a language. -/
def Takes (text : Array Char) (language : Language Char)
    (step : Cursor → Continuation → Option Cursor) : Prop :=
  ∀ (cursor : Cursor) (k : Continuation), (step cursor k).isSome = true ↔
    ∃ w ∈ language, w <+: cursor.left text ∧ (k (cursor.advanced w.length)).isSome = true

theorem append_left {cursor : Cursor} {u v : List Char} :
    u ++ v <+: cursor.left text ↔
      u <+: cursor.left text ∧ v <+: (cursor.advanced u.length).left text := by
  have rest : (cursor.advanced u.length).left text = (cursor.left text).drop u.length := by
    simp [Cursor.left, Cursor.advanced, List.drop_drop]
  rw [rest]
  constructor
  · rintro ⟨after, same⟩
    rw [← same]
    exact ⟨⟨v ++ after, by simp⟩, by simp⟩
  · rintro ⟨⟨after, same⟩, ⟨behind, later⟩⟩
    rw [← same] at later ⊢
    rw [List.drop_left] at later
    exact ⟨behind, by rw [List.append_assoc, later]⟩

theorem advanced_append (cursor : Cursor) (u v : List Char) :
    (cursor.advanced u.length).advanced v.length = cursor.advanced (u ++ v).length := by
  simp [Cursor.advanced, Nat.add_assoc]

namespace Takes

variable {language other : Language Char} {step next : Cursor → Continuation → Option Cursor}

theorem nothing : Takes text 1 fun cursor k => k cursor := by
  intro cursor k
  simp only [Language.mem_one]
  constructor
  · intro found
    exact ⟨[], rfl, List.nil_prefix, found⟩
  · rintro ⟨_, rfl, _, found⟩
    exact found

theorem character (test : Char → Bool) : Takes text (single test) fun cursor k =>
    match text[cursor.position]? with
    | some c => if test c then k (cursor.advanced 1) else none
    | none => none := by
  intro cursor k
  simp only [head_left]
  cases cursor.left text with
  | nil => simp [mem_single]
  | cons c rest =>
      by_cases passes : test c = true
      · simp [mem_single, passes]
      · simp [mem_single, passes]

/-- A word, and behind it what the rest of the match takes there. -/
theorem andThen (first : Takes text language step) {cursor : Cursor} {k' k : Continuation}
    (later : ∀ u ∈ language, u <+: cursor.left text →
      ((k' (cursor.advanced u.length)).isSome = true ↔
        ∃ v ∈ other, v <+: (cursor.advanced u.length).left text ∧
          (k ((cursor.advanced u.length).advanced v.length)).isSome = true)) :
    (step cursor k').isSome = true ↔
      ∃ w ∈ language * other,
        w <+: cursor.left text ∧ (k (cursor.advanced w.length)).isSome = true := by
  rw [first]
  simp only [Language.mem_mul]
  constructor
  · rintro ⟨u, inFirst, front, found⟩
    obtain ⟨v, inSecond, behind, found⟩ := (later u inFirst front).mp found
    rw [advanced_append] at found
    exact ⟨u ++ v, ⟨u, inFirst, v, inSecond, rfl⟩, append_left.mpr ⟨front, behind⟩, found⟩
  · rintro ⟨_, ⟨u, inFirst, v, inSecond, rfl⟩, whole, found⟩
    obtain ⟨front, behind⟩ := append_left.mp whole
    rw [← advanced_append] at found
    exact ⟨u, inFirst, front, (later u inFirst front).mpr ⟨v, inSecond, behind, found⟩⟩

theorem seq (first : Takes text language step) (second : Takes text other next) :
    Takes text (language * other) fun cursor k => step cursor fun after => next after k :=
  fun _ k => first.andThen fun _ _ _ => second _ k

theorem or_isSome {first second : Option Cursor} :
    (match first with
      | some result => some result
      | none => second).isSome = true ↔ first.isSome = true ∨ second.isSome = true := by
  cases first <;> simp

theorem either (first : Takes text language step) (second : Takes text other next) :
    Takes text (language + other) fun cursor k =>
      match step cursor k with
      | some result => some result
      | none => next cursor k := by
  intro cursor k
  simp only [or_isSome, first cursor k, second cursor k, Language.mem_add, or_and_right, exists_or]

/-! ## Repetitions -/

/-- What a repetition takes behind so many rounds. -/
def Rounds (language : Language Char) (least : Nat) (most : Option Nat) (count : Nat) :
    Language Char :=
  {w | ∃ more, least ≤ count + more ∧ (∀ bound ∈ most, count + more ≤ bound) ∧ w ∈ language ^ more}

section
variable {least count : Nat} {most : Option Nat}

theorem mem_mul_rounds {w : List Char} :
    w ∈ language * Rounds language least most (count + 1) ↔
      ∃ more, least ≤ count + 1 + more ∧ (∀ bound ∈ most, count + 1 + more ≤ bound) ∧
        w ∈ language ^ (more + 1) := by
  simp only [pow_succ', Language.mem_mul]
  constructor
  · rintro ⟨u, first, v, ⟨more, low, high, others⟩, rfl⟩
    exact ⟨more, low, high, u, first, v, others, rfl⟩
  · rintro ⟨more, low, high, u, first, v, others, rfl⟩
    exact ⟨u, first, v, ⟨more, low, high, others⟩, rfl⟩

theorem rounds_below (below : count < least) :
    Rounds language least most count = language * Rounds language least most (count + 1) := by
  ext w
  rw [mem_mul_rounds]
  constructor
  · rintro ⟨more, low, high, member⟩
    obtain ⟨more, rfl⟩ : ∃ fewer, more = fewer + 1 := ⟨more - 1, by omega⟩
    exact ⟨more, by omega, fun bound given => by have := high bound given; omega, member⟩
  · rintro ⟨more, low, high, member⟩
    exact ⟨more + 1, by omega, fun bound given => by have := high bound given; omega, member⟩

theorem rounds_free (enough : least ≤ count) (free : ∀ bound ∈ most, count < bound) :
    Rounds language least most count = language * Rounds language least most (count + 1) + 1 := by
  ext w
  rw [Language.mem_add, mem_mul_rounds, Language.mem_one]
  constructor
  · rintro ⟨more, low, high, member⟩
    cases more with
    | zero => exact .inr (by simpa [Language.mem_one] using member)
    | succ more =>
        refine .inl ⟨more, by omega, fun bound given => ?_, member⟩
        have := high bound given
        omega
  · rintro (⟨more, low, high, member⟩ | rfl)
    · refine ⟨more + 1, by omega, fun bound given => ?_, member⟩
      have := high bound given
      omega
    · exact ⟨0, enough, fun bound given => Nat.le_of_lt (free bound given), by simp⟩

theorem rounds_full (enough : least ≤ count) (full : most = some count) :
    Rounds language least most count = 1 := by
  ext w
  rw [Language.mem_one]
  constructor
  · rintro ⟨more, low, high, member⟩
    have none : more = 0 := by
      have := high count full
      omega
    subst none
    simpa [Language.mem_one] using member
  · rintro rfl
    refine ⟨0, enough, fun bound given => ?_, by simp⟩
    rw [full] at given
    exact Nat.le_of_eq (Option.some.inj given)

end

/-- The rounds of a repetition try just the words that may still be taken, if each round takes a
    character: then the fuel, which is more than what is left of the text, is enough, and no round
    is refused because the last one took nothing. -/
theorem rounds (body : Takes text language step) (moves : ∀ w ∈ language, 0 < w.length)
    {least : Nat} {most : Option Nat} (fits : ∀ bound ∈ most, least ≤ bound) (k : Continuation)
    {fuel count : Nat} (within : ∀ bound ∈ most, count ≤ bound) {last : Option Nat}
    {cursor : Cursor} (moved : ∀ before ∈ last, before < cursor.position)
    (enough : (cursor.left text).length < fuel) :
    (greedyRounds step least most k count last cursor fuel).isSome = true ↔
      ∃ w ∈ Rounds language least most count,
        w <+: cursor.left text ∧ (k (cursor.advanced w.length)).isSome = true := by
  induction fuel generalizing count last cursor with
  | zero => omega
  | succ fuel ih =>
      have again {last : Option Nat} (moved : ∀ before ∈ last, before ≤ cursor.position)
          (free : ∀ bound ∈ most, count < bound) :
          (step cursor fun after =>
            greedyRounds step least most k (count + 1) last after fuel).isSome = true ↔
            ∃ w ∈ language * Rounds language least most (count + 1),
              w <+: cursor.left text ∧ (k (cursor.advanced w.length)).isSome = true := by
        refine body.andThen fun u inside front => ?_
        have some := moves u inside
        refine ih (fun bound given => free bound given) (fun before given => ?_) ?_
        · have := moved before given
          simp only [Cursor.advanced]
          omega
        · have shorter := front.length_le
          simp only [Cursor.left, Cursor.advanced, List.length_drop] at enough shorter ⊢
          omega
      rw [greedyRounds]
      by_cases below : count < least
      · rw [if_pos below, rounds_below below]
        refine again (fun before given => Nat.le_of_lt (moved before given)) fun bound given => ?_
        exact Nat.lt_of_lt_of_le below (fits bound given)
      rw [if_neg below]
      have enough := Nat.not_lt.mp below
      by_cases full : most = some count
      · have refused : roundAllowed most count last cursor = false := by simp [roundAllowed, full]
        rw [if_neg (by simp [refused]), rounds_full enough full]
        exact nothing cursor k
      · have free : ∀ bound ∈ most, count < bound := by
          intro bound given
          refine Nat.lt_of_le_of_ne (within bound given) fun same => full ?_
          rw [same]
          exact given
        have allowed : roundAllowed most count last cursor = true := by
          have fresh : last ≠ some cursor.position := fun same =>
            Nat.lt_irrefl _ (moved cursor.position same)
          cases most with
          | none => simp [roundAllowed, fresh]
          | some bound => simp [roundAllowed, fresh, free bound rfl]
        have now : ∀ before ∈ some cursor.position, before ≤ cursor.position := by
          intro before given
          exact Nat.le_of_eq (Option.some.inj given).symm
        rw [if_pos allowed, rounds_free enough free]
        have stop := (nothing : Takes text 1 fun cursor k => k cursor) cursor k
        refine or_isSome.trans ?_
        rw [again now free, stop]
        simp only [Language.mem_add, or_and_right, exists_or]

/-! ## Repetitions of characters -/

theorem runLength_eq {test : Char → Bool} {cursor : Cursor} {most : Nat} :
    runLength text test cursor.position most =
      (((cursor.left text).take most).takeWhile test).length := by
  induction most generalizing cursor with
  | zero => simp [runLength]
  | succ most ih =>
      have behind : runLength text test (cursor.advanced 1).position most = _ := ih
      have rest : (cursor.advanced 1).left text = (cursor.left text).tail := by
        simp [Cursor.left, Cursor.advanced]
      rw [rest] at behind
      rw [runLength, head_left]
      generalize cursor.left text = left at behind ⊢
      cases left with
      | nil => rfl
      | cons c after =>
          simp only [List.head?_cons, List.take_succ_cons, List.takeWhile_cons]
          split
          · simpa [Cursor.advanced] using behind
          · rfl

theorem tryDown_isSome {cursor : Cursor} {least count : Nat} {k : Continuation} :
    (tryDown cursor least k count).isSome = true ↔
      ∃ taken, least ≤ taken ∧ taken ≤ count ∧ (k (cursor.advanced taken)).isSome = true := by
  induction count with
  | zero =>
      rw [tryDown]
      constructor
      · intro found
        split at found
        · exact ⟨0, by omega, by omega, found⟩
        · nomatch found
      · rintro ⟨taken, enough, none, found⟩
        obtain rfl : taken = 0 := by omega
        rw [if_pos (by omega)]
        exact found
  | succ count ih =>
      rw [tryDown]
      split
      · constructor
        · intro found
          nomatch found
        · rintro ⟨taken, enough, most, _⟩
          omega
      · refine or_isSome.trans ?_
        rw [ih]
        constructor
        · rintro (found | ⟨taken, enough, most, found⟩)
          · exact ⟨count + 1, by omega, by omega, found⟩
          · exact ⟨taken, enough, by omega, found⟩
        · rintro ⟨taken, enough, most, found⟩
          by_cases all : taken = count + 1
          · exact .inl (all ▸ found)
          · exact .inr ⟨taken, enough, by omega, found⟩

theorem mem_rounds_single {test : Char → Bool} {least : Nat} {most : Option Nat} {w : List Char} :
    w ∈ Rounds (single test) least most 0 ↔
      least ≤ w.length ∧ (∀ bound ∈ most, w.length ≤ bound) ∧ ∀ c ∈ w, test c = true := by
  simp only [Rounds, Nat.zero_add]
  constructor
  · rintro ⟨more, low, high, member⟩
    obtain ⟨rfl, all⟩ := mem_single_pow.mp member
    exact ⟨low, high, all⟩
  · rintro ⟨low, high, all⟩
    exact ⟨w.length, low, high, mem_single_pow.mpr ⟨rfl, all⟩⟩

/-- A run of characters has the length of the longest word that may be taken. -/
theorem le_takeWhile {test : Char → Bool} {left : List Char} {count most : Nat} :
    count ≤ ((left.take most).takeWhile test).length ↔
      ∃ w, w <+: left ∧ w.length = count ∧ count ≤ most ∧ ∀ c ∈ w, test c = true := by
  constructor
  · intro enough
    have inRun : (left.take most).takeWhile test <+: left.take most := List.takeWhile_prefix test
    have short := inRun.length_le
    rw [List.length_take] at short
    refine ⟨((left.take most).takeWhile test).take count, ?_, ?_, by omega, ?_⟩
    · exact (List.take_prefix _ _).trans (inRun.trans (List.take_prefix _ _))
    · rw [List.length_take]
      omega
    · exact fun c member => List.mem_takeWhile_imp (List.mem_of_mem_take member)
  · rintro ⟨w, ⟨after, rfl⟩, rfl, bounded, all⟩
    rw [List.take_append, List.take_of_length_le bounded, List.takeWhile_append_of_pos all,
      List.length_append]
    exact Nat.le_add_right _ _

/-- As many characters as pass the test are looked at, and any of their number may be taken. -/
theorem repeated {test : Char → Bool} {least : Nat} {most : Option Nat} :
    Takes text (Rounds (single test) least most 0) (repeatedChar text .greedy least most test) := by
  intro cursor k
  have room : text.size - cursor.position = (cursor.left text).length := by simp [Cursor.left]
  have bounded (count : Nat) :
      count ≤ min (cursor.left text).length (most.getD (cursor.left text).length) ↔
        count ≤ (cursor.left text).length ∧ ∀ bound ∈ most, count ≤ bound := by
    cases most <;> simp
  simp only [repeatedChar, room, runLength_eq, mem_rounds_single]
  constructor
  · intro found
    split at found
    · nomatch found
    · obtain ⟨_, enough, within, found⟩ := tryDown_isSome.mp found
      obtain ⟨w, front, rfl, small, all⟩ := le_takeWhile.mp within
      exact ⟨w, ⟨enough, ((bounded _).mp small).2, all⟩, front, found⟩
  · rintro ⟨w, ⟨enough, small, all⟩, front, found⟩
    have within := le_takeWhile.mpr ⟨w, front, rfl, (bounded _).mpr ⟨front.length_le, small⟩, all⟩
    rw [if_neg (by omega)]
    exact tryDown_isSome.mpr ⟨w.length, enough, within, found⟩

end Takes

theorem Node.language_repeated (flags : Flags) (greed : Greed) (least : Nat) (most : Option Nat)
    (body : Node) : (Node.repeated greed least most body).language flags =
      Takes.Rounds (body.language flags) least most 0 := by
  unfold Takes.Rounds
  simp only [Nat.zero_add]
  rfl

theorem Node.mem_optional {flags : Flags} {greed : Greed} {body : Node} {w : List Char} :
    w ∈ (Node.repeated greed 0 (some 1) body).language flags ↔
      w = [] ∨ w ∈ body.language flags := by
  rw [language_repeated, Takes.rounds_free (Nat.le_refl 0) (by simp),
    Takes.rounds_full (Nat.zero_le 1) rfl, mul_one, Language.mem_add, Language.mem_one, or_comm]

/-- Several rounds, of words that are built from parts. -/
theorem Node.mem_repeated_some {flags : Flags} {greed : Greed} {body : Node}
    {part : List Char → Prop} {built : List Char → List Char}
    (each : ∀ w, w ∈ body.language flags ↔ ∃ v, part v ∧ w = built v) {w : List Char} :
    w ∈ (Node.repeated greed 1 none body).language flags ↔
      ∃ parts, parts ≠ [] ∧ (∀ v ∈ parts, part v) ∧ w = parts.flatMap built := by
  rw [language_repeated]
  constructor
  · rintro ⟨count, some, _, member⟩
    obtain ⟨parts, length, known, rfl⟩ := (mem_pow_iff each).mp member
    refine ⟨parts, ?_, known, rfl⟩
    rw [← List.length_pos_iff]
    omega
  · rintro ⟨parts, some, known, rfl⟩
    have long := List.length_pos_iff.mpr some
    exact ⟨parts.length, by omega, by simp, (mem_pow_iff each).mpr ⟨parts, rfl, known, rfl⟩⟩

theorem Node.mem_repeated_test {flags : Flags} {body : Node} {test : Char → Bool}
    (found : body.charTest? flags = some test) {greed : Greed} {least : Nat} {most : Option Nat}
    {w : List Char} : w ∈ (Node.repeated greed least most body).language flags ↔
      least ≤ w.length ∧ (∀ bound ∈ most, w.length ≤ bound) ∧ ∀ c ∈ w, test c = true := by
  rw [language_repeated, language_charTest found, Takes.mem_rounds_single]

section
variable {flags : Flags} {items : List SetItem} {test : Char → Bool}
  (same : ∀ c, inSet flags false items c = test c) {w : List Char}
include same

theorem Node.mem_set :
    w ∈ (Node.set false items).language flags ↔ ∃ c, test c = true ∧ w = [c] := by
  rw [language_set, mem_single]
  simp only [same]

theorem Node.mem_repeated_set {greed : Greed} {least : Nat} {most : Option Nat} :
    w ∈ (Node.repeated greed least most (.set false items)).language flags ↔
      least ≤ w.length ∧ (∀ bound ∈ most, w.length ≤ bound) ∧ ∀ c ∈ w, test c = true := by
  rw [mem_repeated_test rfl]
  simp only [same]

end

/-- The matcher takes just the words of a plain part. -/
theorem Node.takes (groups : Nat → Nat × Nat) (flags : Flags) {node : Node}
    (plain : node.isPlain = true) :
    Takes text (node.language flags) (node.matchThen text groups flags) := by
  induction node generalizing flags with
  | empty => exact .nothing
  | literal | any | set => exact .character _
  | seq first second ihFirst ihSecond =>
      obtain ⟨plainFirst, plainSecond⟩ := Bool.and_eq_true_iff.mp plain
      exact (ihFirst flags plainFirst).seq (ihSecond flags plainSecond)
  | either first second ihFirst ihSecond =>
      obtain ⟨plainFirst, plainSecond⟩ := Bool.and_eq_true_iff.mp plain
      exact (ihFirst flags plainFirst).either (ihSecond flags plainSecond)
  | «scoped» change body ih => exact ih _ plain
  | repeated greed least most body ih =>
      simp only [isPlain, Bool.and_eq_true, decide_eq_true_eq] at plain
      obtain ⟨⟨⟨rfl, fits⟩, plainBody⟩, moves⟩ := plain
      have fits : ∀ bound ∈ most, least ≤ bound := by
        intro bound given
        rw [Option.mem_def.mp given] at fits
        simpa using fits
      rw [language_repeated]
      intro cursor k
      rw [matchThen]
      cases found : body.charTest? flags with
      | some test =>
          rw [language_charTest found]
          exact Takes.repeated cursor k
      | none =>
          refine (ih flags plainBody).rounds ?_ fits k ?_ ?_ ?_
          · intro w inside
            have long : (body.width fun _ => (0, 0)).1 ≤ w.length := width_le plainBody inside
            exact Nat.lt_of_lt_of_le moves long
          · exact fun bound _ => Nat.zero_le bound
          · exact fun before given => nomatch given
          · simp only [Cursor.left, List.length_drop, Array.length_toList]
            omega
  | _ => nomatch plain

/-! ## Whole lines -/

/-- Parts one after the other, from the start of a line to its end. -/
def Node.line (parts : List Node) : Node :=
  .seq (.anchor .lineStart) (parts.foldr .seq (.anchor .lineEnd))

theorem Node.parts_isSome {groups : Nat → Nat × Nat} {flags : Flags} {parts : List Node}
    (plain : ∀ part ∈ parts, part.isPlain = true) {last : Node} {cursor : Cursor}
    {k : Continuation} :
    ((parts.foldr .seq last).matchThen text groups flags cursor k).isSome = true ↔
      ∃ w ∈ (parts.map (Node.language flags)).prod, w <+: cursor.left text ∧
        (last.matchThen text groups flags (cursor.advanced w.length) k).isSome = true := by
  induction parts generalizing cursor with
  | nil =>
      have nothing : Takes text 1 fun cursor k => k cursor := .nothing
      exact nothing cursor fun after => last.matchThen text groups flags after k
  | cons part rest ih =>
      obtain ⟨plainPart, plainRest⟩ := List.forall_mem_cons.mp plain
      rw [List.map_cons, List.prod_cons]
      exact (takes groups flags plainPart).andThen
        (k := fun after => last.matchThen text groups flags after k)
        fun _ _ _ => ih plainRest

/-- With one line only, its end is the end of the text, or stands before a last line feed. -/
theorem lineEnd_holds {flags : Flags} (one : flags.multiline = false) {whole w : List Char}
    (front : w <+: whole) :
    Anchor.lineEnd.holds whole.toArray flags w.length = true ↔ whole = w ∨ whole = w ++ ['\n'] := by
  obtain ⟨after, rfl⟩ := front
  rcases after with _ | ⟨c, _ | ⟨d, rest⟩⟩ <;> simp [Anchor.holds, one]

/-- A pattern that is one line matches at the start of a text just if the text is one of its words,
    or a word with a line feed behind it. -/
theorem matchStart?_line {pattern : Pattern} {flags : Flags} {parts : List Node}
    (shape : pattern.node = Node.line parts) (plain : ∀ part ∈ parts, part.isPlain = true)
    (one : flags.multiline = false) (text : List Char) :
    (pattern.matchStart? flags text).isSome = true ↔
      ∃ w ∈ (parts.map (Node.language flags)).prod, text = w ∨ text = w ++ ['\n'] := by
  simp only [matchStart?, shape, Node.line, Node.matchThen]
  have start : Anchor.lineStart.holds text.toArray flags 0 = true := rfl
  rw [if_pos start, Node.parts_isSome plain]
  refine exists_congr fun w => and_congr_right fun _ => ?_
  simp only [Cursor.left, Cursor.advanced, List.drop_zero, Node.matchThen, Nat.zero_add]
  constructor
  · rintro ⟨front, found⟩
    split at found
    · rename_i holds
      exact (lineEnd_holds one front).mp holds
    · nomatch found
  · intro same
    have front : w <+: text := by
      rcases same with rfl | rfl
      · exact List.prefix_refl text
      · exact List.prefix_append w _
    refine ⟨front, ?_⟩
    rw [if_pos ((lineEnd_holds one front).mpr same)]
    rfl

end FieldRules.Pattern
