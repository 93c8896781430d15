import FieldRules.Pattern.Replacing
import FieldRules.Proofs.Pattern.Language

/-! # What replacing comes to

Where a pattern does not match, one character stays and the search goes on behind it; where it does,
the replacement stands for what the match took. `replaceAll_pairs` is the induction over the text
for patterns whose matches are pairs of groups: a function on texts that does the same at the front
of each text is what replacing comes to, and the bound on rounds never matters, since each match
takes a character.
-/

namespace FieldRules.Pattern

variable {pattern : Pattern} {inserts : List Insert} {text : Array Char} {moves : Bool}
  {position rounds : Nat} {cursor : Cursor}

/-! ## One search -/

theorem search?_here (found : pattern.matchAt? text moves position = some cursor) (room : Nat) :
    pattern.search? text moves position room = some (position, cursor) := by
  cases room with
  | zero => simp [search?, found]
  | succ room => simp [search?, found]

theorem search?_behind (absent : pattern.matchAt? text moves position = none) (room : Nat) :
    pattern.search? text moves position (room + 1) =
      pattern.search? text false (position + 1) room := by
  simp [search?, absent]

theorem le_of_search? {room first : Nat}
    (found : pattern.search? text moves position room = some (first, cursor)) :
    position ≤ first := by
  induction room generalizing position moves with
  | zero =>
      obtain ⟨_, _, same⟩ := Option.map_eq_some_iff.mp found
      cases same
      exact Nat.le_refl _
  | succ room ih =>
      rw [search?] at found
      split at found
      · cases found
        exact Nat.le_refl _
      · have := ih found
        omega

/-! ## One replacement -/

theorem replaceFrom_end (absent : pattern.matchAt? text moves position = none)
    (beyond : text.size ≤ position) :
    pattern.replaceFrom inserts text moves position (rounds + 1) = [] := by
  have room : text.size - position = 0 := by omega
  simp [replaceFrom, room, search?, absent, beyond]

theorem replaceFrom_behind (absent : pattern.matchAt? text moves position = none) {c : Char}
    {rest : List Char} (left : text.toList.drop position = c :: rest) :
    pattern.replaceFrom inserts text moves position (rounds + 1) =
      c :: pattern.replaceFrom inserts text false (position + 1) (rounds + 1) := by
  have inside : position < text.size := by
    have length := congrArg List.length left
    simp only [List.length_drop, Array.length_toList, List.length_cons] at length
    omega
  have behind : text.toList.drop (position + 1) = rest := by
    rw [← List.tail_drop, left, List.tail_cons]
  obtain ⟨room, given⟩ : ∃ room, text.size - position = room + 1 :=
    ⟨text.size - (position + 1), by omega⟩
  have fewer : text.size - (position + 1) = room := by omega
  simp only [replaceFrom, given, fewer, search?_behind absent, left, behind]
  split
  next => rfl
  next first cursor found =>
    obtain ⟨more, reached⟩ := Nat.exists_eq_add_of_le (le_of_search? found)
    have here : first - position = more + 1 := by omega
    have there : first - (position + 1) = more := by omega
    simp only [here, there, List.take_succ_cons, List.cons_append]

theorem replaceFrom_here (found : pattern.matchAt? text moves position = some cursor) :
    pattern.replaceFrom inserts text moves position (rounds + 1) =
      inserts.flatMap (·.expand text cursor) ++
        pattern.replaceFrom inserts text (cursor.position == position) cursor.position rounds := by
  simp [replaceFrom, search?_here found]

/-! ## Pairs of groups -/

/-- The cursor behind two groups of so many characters. -/
def Cursor.behindPair (position first second : Nat) : Cursor where
  position := position + first + second
  starts := [(2, position + first), (1, position)]
  ends := [(2, position + first + second), (1, position + first)]

theorem expand_around {u v rest : List Char} (left : text.toList.drop position = u ++ (v ++ rest))
    (mark : List Char) :
    (Insert.around mark).flatMap (·.expand text (.behindPair position u.length v.length)) =
      u ++ mark ++ v := by
  have behind : text.toList.drop (position + u.length) = v ++ rest := by
    rw [← List.drop_drop, left, List.drop_left]
  simp [Insert.around, Insert.expand, Cursor.captured?, Cursor.behindPair, List.lookup_cons, left,
    behind]

/-- Whether a pattern matches just where two texts stand that make a pair, as its two groups. -/
structure MatchesPairs (pattern : Pattern) (pair : List Char → List Char → Prop) : Prop where
  moves {u v : List Char} : pair u v → u ≠ []
  found {text : Array Char} {position : Nat} {u v rest : List Char} :
    text.toList.drop position = u ++ (v ++ rest) → pair u v →
      pattern.matchAt? text false position = some (.behindPair position u.length v.length)
  absent {text : Array Char} {position : Nat} :
    (∀ u v rest, text.toList.drop position = u ++ (v ++ rest) → ¬pair u v) →
      pattern.matchAt? text false position = none

/-- Replacing is any function that keeps a character where no pair begins, and behind a pair goes on
    with what follows it. -/
theorem replaceAll_pairs {pair : List Char → List Char → Prop}
    (matched : MatchesPairs pattern pair) {mark : List Char} {out : List Char → List Char}
    (nil : out [] = [])
    (cut : ∀ u v rest, pair u v → out (u ++ (v ++ rest)) = u ++ mark ++ v ++ out rest)
    (kept : ∀ c rest, (∀ u v after, c :: rest = u ++ (v ++ after) → ¬pair u v) →
      out (c :: rest) = c :: out rest) (cs : List Char) :
    pattern.replaceAll (Insert.around mark) cs = out cs := by
  have every (size : Nat) : ∀ (position rounds : Nat), (cs.drop position).length ≤ size →
      size < rounds → pattern.replaceFrom (Insert.around mark) cs.toArray false position rounds =
        out (cs.drop position) := by
    induction size with
    | zero =>
        intro position rounds short more
        obtain ⟨rounds, rfl⟩ : ∃ fewer, rounds = fewer + 1 := ⟨rounds - 1, by omega⟩
        have left : cs.drop position = [] := List.length_eq_zero_iff.mp (Nat.le_zero.mp short)
        have absent : pattern.matchAt? cs.toArray false position = none := by
          apply matched.absent
          intro u v rest whole pair
          have none : u ++ (v ++ rest) = [] := whole.symm.trans left
          exact matched.moves pair (List.append_eq_nil_iff.mp none).1
        rw [left, nil]
        exact replaceFrom_end absent (by simpa using List.drop_eq_nil_iff.mp left)
    | succ size ih =>
        intro position rounds short more
        obtain ⟨rounds, rfl⟩ : ∃ fewer, rounds = fewer + 1 := ⟨rounds - 1, by omega⟩
        by_cases pairs : ∃ u v rest, cs.drop position = u ++ (v ++ rest) ∧ pair u v
        case pos =>
          obtain ⟨u, v, rest, left, isPair⟩ := pairs
          have some := List.length_pos_iff.mpr (matched.moves isPair)
          have behind : cs.drop (position + u.length + v.length) = rest := by
            rw [← List.drop_drop, ← List.drop_drop, left, List.drop_left, List.drop_left]
          have further : (position + u.length + v.length == position) = false := by
            rw [beq_eq_false_iff_ne]
            omega
          have shorter : rest.length ≤ size := by
            have length := congrArg List.length left
            simp only [List.length_append] at length
            omega
          rw [replaceFrom_here (matched.found left isPair), expand_around left, left,
            cut u v rest isPair]
          simp only [Cursor.behindPair, further]
          rw [ih _ rounds (by rwa [behind]) (by omega), behind]
        case neg =>
          have absent : pattern.matchAt? cs.toArray false position = none :=
            matched.absent fun u v rest left isPair => pairs ⟨u, v, rest, left, isPair⟩
          cases left : cs.drop position with
          | nil =>
              rw [nil]
              exact replaceFrom_end absent (by simpa using List.drop_eq_nil_iff.mp left)
          | cons c rest =>
              have behind : cs.drop (position + 1) = rest := by
                rw [← List.tail_drop, left, List.tail_cons]
              rw [left, List.length_cons] at short
              rw [replaceFrom_behind absent left, kept c rest,
                ih _ _ (by rw [behind]; omega) (by omega), behind]
              intro u v after whole isPair
              exact pairs ⟨u, v, after, left.trans whole, isPair⟩
  exact every cs.length 0 _ (Nat.le_refl _) (by omega)

/-! ## Single characters and runs of them -/

variable {groups : Nat → Nat × Nat} {flags : Flags} {k : Continuation}

theorem matchThen_seq (first second : Node) :
    (Node.seq first second).matchThen text groups flags cursor k =
      first.matchThen text groups flags cursor fun next =>
        second.matchThen text groups flags next k := rfl

theorem matchThen_capture (index : Nat) (body : Node) :
    (Node.capture index body).matchThen text groups flags cursor k =
      body.matchThen text groups flags
        { cursor with starts := (index, cursor.position) :: cursor.starts } fun next =>
          k { next with ends := (index, next.position) :: next.ends } := rfl

/-- A set takes one character of its own. -/
theorem matchThen_set {items : List SetItem} {test : Char → Bool}
    (same : ∀ c, inSet flags false items c = test c) :
    (Node.set false items).matchThen text groups flags cursor k =
      match cursor.left text with
      | c :: _ => if test c then k (cursor.advanced 1) else none
      | [] => none := by
  rw [Node.matchThen, head_left]
  cases cursor.left text with
  | nil => rfl
  | cons c rest => simp only [List.head?_cons, same]

/-- A greedy repetition takes as much as it can: what it goes on with less is not tried. -/
theorem tryDown_eq {least count taken : Nat} (enough : least ≤ taken) (most : taken ≤ count)
    {result : Cursor} (found : k (cursor.advanced taken) = some result)
    (fewer : ∀ more, taken < more → more ≤ count → k (cursor.advanced more) = none) :
    tryDown cursor least k count = some result := by
  induction count with
  | zero =>
      obtain rfl : taken = 0 := by omega
      rw [tryDown, if_pos (by omega)]
      exact found
  | succ count ih =>
      rw [tryDown, if_neg (by omega)]
      by_cases all : taken = count + 1
      · rw [← all, found]
      · rw [fewer (count + 1) (by omega) (Nat.le_refl _)]
        exact ih (by omega) fun more above below => fewer more above (by omega)

/-- A repetition of a set runs over all characters of the set before the rest of the match is tried,
    and goes back as long as that fails. -/
theorem matchThen_repeated_set {items : List SetItem} {test : Char → Bool}
    (same : ∀ c, inSet flags false items c = test c) {least : Nat} :
    (Node.repeated .greedy least none (.set false items)).matchThen text groups flags cursor k =
      let count := ((cursor.left text).takeWhile test).length
      if count < least then none else tryDown cursor least k count := by
  have tests : inSet flags false items = test := funext same
  have room : (cursor.left text).take (text.size - cursor.position) = cursor.left text := by
    apply List.take_of_length_le
    simp [Cursor.left]
  simp only [Node.matchThen, Node.charTest?, repeatedChar, Option.getD_none, Nat.min_self, tests,
    Takes.runLength_eq, room]

end FieldRules.Pattern
