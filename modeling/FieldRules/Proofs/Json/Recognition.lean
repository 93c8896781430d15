import FieldRules.Proofs.Json.Numbers

/-! # Recognition of JSON

A text is read just if it is one of the grammar in which no whole number is too long. If one is, the
first of them decides: the text may go on in any way behind it.
-/

namespace FieldRules.Json

open FieldRules.Number FieldRules.Text

/-! ## Values that are tokens -/

/-- The branches of reading a value that is neither a string nor an array nor an object. -/
theorem takeValue_plain (fuel : Nat) {c : Char} (other : c ∉ ['"', '[', '\x7b']) (cs : List Char) :
    takeValue (fuel + 1) (c :: cs) = (takeNamed? (c :: cs)).elim (takeNumber (c :: cs)) .ok := by
  simp only [List.mem_cons, List.not_mem_nil, or_false, not_or] at other
  obtain ⟨noQuote, noBracket, noBrace⟩ := other
  rw [takeValue]
  · cases takeNamed? (c :: cs) with
    | none => rfl
    | some => rfl
  all_goals
    intro rest same
    obtain rfl := (List.cons.inj same).1
    contradiction

theorem word_comes {d : Dialect} {word : String}
    (known : word ∈ "null" :: "true" :: "false" :: Dialect.extended.words) (fuel : Nat)
    (rest : List Char) : Comes d rest (takeValue (fuel + 1) (word.toList ++ rest)) := by
  simp only [Dialect.extended, List.mem_cons, List.not_mem_nil, or_false] at known
  rcases known with rfl | rfl | rfl | rfl | rfl | rfl
  · exact .read _
  · exact .read _
  · exact .read _
  · exact .read _
  · exact .read _
  · exact .read _

theorem takeValue_signed {sign : List Char} (minus : Minus sign) {c : Char}
    (digit : isAsciiDigit c = true) (fuel : Nat) (cs : List Char) :
    takeValue (fuel + 1) (sign ++ c :: cs) = takeNumber (sign ++ c :: cs) := by
  rcases minus with rfl | rfl
  · have other : c ∉ ['"', '[', '\x7b'] := by
      intro mark
      simp only [List.mem_cons, List.not_mem_nil, or_false] at mark
      rcases mark with rfl | rfl | rfl <;> simp [isAsciiDigit] at digit
    rw [List.nil_append, takeValue_plain fuel other, takeNamed?_digit digit]
    rfl
  · exact takeValue_plain fuel (by decide) (c :: cs)

/-- No value begins with a blank or a closing bracket. -/
theorem takeValue_refused {c : Char} (closed : c ∈ [' ', '\t', '\n', '\r', ']']) (fuel : Nat)
    (cs : List Char) : takeValue fuel (c :: cs) = .error .malformed := by
  cases fuel with
  | zero => rfl
  | succ fuel =>
      simp only [List.mem_cons, List.not_mem_nil, or_false] at closed
      rcases closed with rfl | rfl | rfl | rfl | rfl
      · rfl
      · rfl
      · rfl
      · rfl
      · rfl

theorem dropGap_value {fuel : Nat} {cs : List Char}
    (value : takeValue fuel cs ≠ .error .malformed) : dropGap cs = cs := by
  cases cs with
  | nil => rfl
  | cons c cs =>
      apply dropGap_cons
      rw [Bool.eq_false_iff]
      intro gap
      have blank := isGap_iff.mp gap
      exact value (takeValue_refused (List.mem_append_left [']'] blank) fuel cs)

/-! ## Texts of the grammar are read -/

theorem Comes.not_malformed {α : Type} {d : Dialect} {rest : List Char}
    {result : Except ReadFault (α × List Char)} (comes : Comes d rest result) :
    result ≠ .error .malformed := by
  rintro rfl
  nomatch comes

/-- What reading entries comes to when the first value is read. -/
def takeFurther (fuel : Nat) (key : String) (taken : Value × List Char) :
    Except ReadFault (List (Value × Value) × List Char) :=
  match dropGap taken.2 with
  | ',' :: rest => do
    let (entries, after) ← takeEntries fuel (dropGap rest)
    return ((.str key, taken.1) :: entries, after)
  | '\x7d' :: after => return ([(.str key, taken.1)], after)
  | _ => .error .malformed

theorem takeEntries_label {label : List Char} (named : Label label) (fuel : Nat) (cs : List Char) :
    ∃ key, takeEntries (fuel + 1) (dropGap (label ++ cs)) =
      takeValue fuel (dropGap cs) >>= takeFurther fuel key := by
  obtain ⟨blank, chars, behind⟩ := named
  rename_i before inner after
  obtain ⟨key, taken⟩ := takeString_taken chars (after ++ ':' :: cs)
  have begins : dropGap (before ++ quoted inner ++ after ++ [':'] ++ cs) =
      '"' :: (inner ++ '"' :: (after ++ ':' :: cs)) := by
    simp only [quoted, List.append_assoc, List.cons_append, List.nil_append]
    rw [dropGap_gap blank, dropGap_cons rfl]
  have colon : dropGap (after ++ ':' :: cs) = ':' :: cs := by
    rw [dropGap_gap behind, dropGap_cons rfl]
  refine ⟨key, ?_⟩
  rw [begins, takeEntries, taken]
  simp only [Bind.bind, Except.bind, colon]
  rfl

theorem takeValue_array {fuel : Nat} {cs : List Char}
    (items : takeItems fuel (dropGap cs) ≠ .error .malformed) :
    takeValue (fuel + 1) ('[' :: cs) =
      takeItems fuel (dropGap cs) >>= fun taken => .ok (.list taken.1, taken.2) := by
  rw [takeValue]
  split
  · rename_i after closed
    rw [closed] at items
    cases fuel with
    | zero => exact absurd rfl items
    | succ fuel =>
        refine absurd ?_ items
        rw [takeItems, takeValue_refused (by decide)]
        rfl
  · rfl

theorem takeValue_object {fuel : Nat} {cs : List Char}
    (entries : takeEntries fuel (dropGap cs) ≠ .error .malformed) :
    takeValue (fuel + 1) ('\x7b' :: cs) =
      takeEntries fuel (dropGap cs) >>= fun taken => .ok (Value.dictOf taken.1, taken.2) := by
  rw [takeValue]
  split
  · rename_i after closed
    rw [closed] at entries
    cases fuel with
    | zero => exact absurd rfl entries
    | succ fuel => exact absurd rfl entries
  · rfl

/-- Fuel that is enough for something is enough for a step. -/
theorem exists_step {need fuel : Nat} (enough : need + 1 ≤ fuel) : ∃ less, fuel = less + 1 :=
  ⟨fuel - 1, by omega⟩

/-- All of a part is taken, to the depth that its length allows for. -/
def Part.Taken (d : Dialect) : Part → List Char → Prop
  | .value, cs => ∀ rest fuel, Stops rest → 2 * cs.length + 1 ≤ fuel →
      Comes d rest (takeValue fuel (cs ++ rest))
  | .element, cs => ∀ rest fuel, Stops rest → 2 * cs.length + 1 ≤ fuel →
      ∃ between, dropGap between = dropGap rest ∧
        Comes d between (takeValue fuel (dropGap (cs ++ rest)))
  | .elements, cs => ∀ rest fuel, 2 * cs.length + 2 ≤ fuel →
      Comes d rest (takeItems fuel (dropGap (cs ++ ']' :: rest)))
  | .members, cs => ∀ rest fuel, 2 * cs.length + 2 ≤ fuel →
      Comes d rest (takeEntries fuel (dropGap (cs ++ '\x7d' :: rest)))

theorem Stops.gap {gap : List Char} (blank : Gap gap) {rest : List Char} (stops : Stops rest) :
    Stops (gap ++ rest) := by
  cases gap with
  | nil => exact stops
  | cons c gap =>
      apply Stops.cons
      have first := blank c List.mem_cons_self
      simp only [List.mem_cons, List.not_mem_nil, or_false] at first
      rcases first with rfl | rfl | rfl | rfl <;> decide

/-- A value is taken when the first step is. -/
theorem Part.Taken.value {d : Dialect} {cs : List Char}
    (step : ∀ rest fuel, Stops rest → 2 * cs.length ≤ fuel →
      Comes d rest (takeValue (fuel + 1) (cs ++ rest))) : Part.Taken d .value cs := by
  intro rest fuel stops enough
  obtain ⟨fuel, rfl⟩ := exists_step enough
  exact step rest fuel stops (by omega)

theorem Derives.taken {d : Dialect} (words : ∀ word ∈ d.words, word ∈ Dialect.extended.words)
    {part : Part} {cs : List Char} (derived : Derives d part cs) : part.Taken d cs := by
  induction derived with
  | @word word known =>
      apply Part.Taken.value
      intro rest fuel _ _
      refine word_comes ?_ fuel rest
      simp only [List.mem_cons] at known ⊢
      exact known.imp_right (·.imp_right (·.imp_right (words word)))
  | number numeral =>
      apply Part.Taken.value
      intro rest fuel stops _
      have comes := numeral.comes stops
      obtain ⟨minus, row, places, power, fits⟩ := numeral
      obtain ⟨c, more, rfl, digit⟩ := row.head
      simp only [List.append_assoc, List.cons_append] at comes ⊢
      rw [takeValue_signed minus digit]
      exact comes
  | string chars =>
      apply Part.Taken.value
      intro rest fuel _ _
      obtain ⟨s, taken⟩ := takeString_taken chars rest
      simp only [quoted, List.append_assoc, List.cons_append, List.nil_append]
      rw [takeValue, taken]
      exact .read (Value.str s)
  | emptyArray blank =>
      apply Part.Taken.value
      intro rest fuel _ _
      simp only [List.append_assoc, List.cons_append, List.nil_append]
      rw [takeValue, dropGap_gap blank, dropGap_cons rfl]
      exact .read (Value.list [])
  | array _ inner =>
      apply Part.Taken.value
      intro rest fuel _ enough
      simp only [List.length_append, List.length_cons, List.length_nil] at enough
      have items := inner rest fuel (by omega)
      simp only [List.append_assoc, List.cons_append, List.nil_append]
      rw [takeValue_array items.not_malformed]
      exact items.bind fun found => .read (Value.list found)
  | emptyObject blank =>
      apply Part.Taken.value
      intro rest fuel _ _
      simp only [List.append_assoc, List.cons_append, List.nil_append]
      rw [takeValue, dropGap_gap blank, dropGap_cons rfl]
      exact .read (Value.dict [])
  | object _ inner =>
      apply Part.Taken.value
      intro rest fuel _ enough
      simp only [List.length_append, List.length_cons, List.length_nil] at enough
      have entries := inner rest fuel (by omega)
      simp only [List.append_assoc, List.cons_append, List.nil_append]
      rw [takeValue_object entries.not_malformed]
      exact entries.bind fun found => .read (Value.dictOf found)
  | @element before cs after blank _ behind value =>
      intro rest fuel stops enough
      simp only [List.length_append] at enough
      have comes := value (after ++ rest) fuel (stops.gap behind) (by omega)
      refine ⟨after ++ rest, dropGap_gap behind rest, ?_⟩
      have solid := dropGap_value comes.not_malformed
      rw [List.append_assoc, List.append_assoc, dropGap_gap blank, solid]
      exact comes
  | lastElement _ only =>
      intro rest fuel enough
      obtain ⟨fuel, rfl⟩ := exists_step enough
      obtain ⟨between, same, comes⟩ :=
        only (']' :: rest) fuel (.cons (by decide) rest) (by omega)
      rw [takeItems]
      refine comes.bind fun item => ?_
      simp only [same, dropGap_cons (show isGap ']' = false from rfl)]
      exact .read [item]
  | @nextElement cs others _ _ first more =>
      intro rest fuel enough
      simp only [List.length_append, List.length_cons] at enough
      obtain ⟨fuel, rfl⟩ := exists_step enough
      obtain ⟨between, same, comes⟩ :=
        first (',' :: (others ++ ']' :: rest)) fuel (.cons (by decide) _) (by omega)
      rw [List.append_assoc, List.cons_append, takeItems]
      refine comes.bind fun item => ?_
      simp only [same, dropGap_cons (show isGap ',' = false from rfl)]
      exact (more rest fuel (by omega)).bind fun items => .read (item :: items)
  | @lastMember label cs named _ only =>
      intro rest fuel enough
      simp only [List.length_append] at enough
      obtain ⟨fuel, rfl⟩ := exists_step enough
      obtain ⟨between, same, comes⟩ :=
        only ('\x7d' :: rest) fuel (.cons (by decide) rest) (by omega)
      obtain ⟨key, entries⟩ := takeEntries_label named fuel (cs ++ '\x7d' :: rest)
      rw [List.append_assoc, entries]
      refine comes.bind fun value => ?_
      simp only [takeFurther, same, dropGap_cons (show isGap '\x7d' = false from rfl)]
      exact .read [(Value.str key, value)]
  | @nextMember label cs others named _ _ first more =>
      intro rest fuel enough
      simp only [List.length_append, List.length_cons] at enough
      obtain ⟨fuel, rfl⟩ := exists_step enough
      obtain ⟨between, same, comes⟩ :=
        first (',' :: (others ++ '\x7d' :: rest)) fuel (.cons (by decide) _) (by omega)
      obtain ⟨key, entries⟩ :=
        takeEntries_label named fuel (cs ++ ',' :: (others ++ '\x7d' :: rest))
      rw [List.append_assoc, List.append_assoc, List.cons_append, entries]
      refine comes.bind fun value => ?_
      simp only [takeFurther, same, dropGap_cons (show isGap ',' = false from rfl)]
      exact (more rest fuel (by omega)).bind fun entries =>
        .read ((Value.str key, value) :: entries)

/-! ## Long numbers are reported -/

/-- Behind a text, a part is not read: too many digits are reported there. -/
def Part.Reports (count : Nat) (back : List Char) : Part → List Char → Prop
  | .value, front => ∀ fuel, 2 * front.length + 1 ≤ fuel →
      takeValue fuel (front ++ back) = .error (.tooManyDigits count)
  | .element, front => ∀ fuel, 2 * front.length + 1 ≤ fuel →
      takeValue fuel (dropGap (front ++ back)) = .error (.tooManyDigits count)
  | .elements, front => ∀ fuel, 2 * front.length + 2 ≤ fuel →
      takeItems fuel (dropGap (front ++ back)) = .error (.tooManyDigits count)
  | .members, front => ∀ fuel, 2 * front.length + 2 ≤ fuel →
      takeEntries fuel (dropGap (front ++ back)) = .error (.tooManyDigits count)

theorem Derives.element_taken {cs : List Char} (derived : Derives .limited .element cs)
    (rest : List Char) (fuel : Nat) (stops : Stops rest) (enough : 2 * cs.length + 1 ≤ fuel) :
    ∃ value between, dropGap between = dropGap rest ∧
      takeValue fuel (dropGap (cs ++ rest)) = .ok (value, between) := by
  obtain ⟨between, same, comes⟩ :=
    derived.taken (d := .limited) (fun _ => id) rest fuel stops enough
  obtain ⟨value, taken⟩ := comes.limited
  exact ⟨value, between, same, taken⟩

theorem Opens.reports {count : Nat} {back : List Char} (begins : BeginsLong count back)
    {part : Part} {front : List Char} (opens : Opens part front) :
    part.Reports count back front := by
  induction opens with
  | here =>
      intro fuel enough
      obtain ⟨fuel, rfl⟩ := exists_step enough
      have taken := begins.taken
      obtain ⟨minus, row, -, -, -⟩ := begins
      obtain ⟨c, more, rfl, digit⟩ := row.head
      rw [List.append_assoc, List.cons_append] at taken ⊢
      rw [List.nil_append, takeValue_signed minus digit, taken]
  | inArray _ inner =>
      intro fuel enough
      obtain ⟨fuel, rfl⟩ := exists_step enough
      have items := inner fuel (by simp only [List.length_cons] at enough; omega)
      rw [List.cons_append, takeValue_array (by rw [items]; nofun), items]
      rfl
  | inObject _ inner =>
      intro fuel enough
      obtain ⟨fuel, rfl⟩ := exists_step enough
      have entries := inner fuel (by simp only [List.length_cons] at enough; omega)
      rw [List.cons_append, takeValue_object (by rw [entries]; nofun), entries]
      rfl
  | element blank _ value =>
      intro fuel enough
      have taken := value fuel (by simp only [List.length_append] at enough; omega)
      rw [List.append_assoc, dropGap_gap blank, dropGap_value (by rw [taken]; nofun), taken]
  | firstElement _ first =>
      intro fuel enough
      obtain ⟨fuel, rfl⟩ := exists_step enough
      rw [takeItems, first fuel (by omega)]
      rfl
  | @laterElement cs others first _ later =>
      intro fuel enough
      simp only [List.length_append, List.length_cons] at enough
      obtain ⟨fuel, rfl⟩ := exists_step enough
      obtain ⟨value, between, same, taken⟩ :=
        first.element_taken (',' :: (others ++ back)) fuel (.cons (by decide) _) (by omega)
      have items := later fuel (by omega)
      rw [List.append_assoc, List.cons_append, takeItems, taken]
      simp only [Bind.bind, Except.bind, same, dropGap_cons (show isGap ',' = false from rfl),
        items]
  | @firstMember label cs named _ first =>
      intro fuel enough
      simp only [List.length_append] at enough
      obtain ⟨fuel, rfl⟩ := exists_step enough
      obtain ⟨key, entries⟩ := takeEntries_label named fuel (cs ++ back)
      rw [List.append_assoc, entries, first fuel (by omega)]
      rfl
  | @laterMember label cs others named first _ later =>
      intro fuel enough
      simp only [List.length_append, List.length_cons] at enough
      obtain ⟨fuel, rfl⟩ := exists_step enough
      obtain ⟨value, between, same, taken⟩ :=
        first.element_taken (',' :: (others ++ back)) fuel (.cons (by decide) _) (by omega)
      obtain ⟨key, entries⟩ := takeEntries_label named fuel (cs ++ ',' :: (others ++ back))
      have more := later fuel (by omega)
      rw [List.append_assoc, List.append_assoc, List.cons_append, entries, taken]
      simp only [Bind.bind, Except.bind, takeFurther, same,
        dropGap_cons (show isGap ',' = false from rfl), more]

/-! ## What is read is a text of the grammar -/

/-- A part of a text with the bracket that closes it. -/
def Ends (part : Part) (close : Char) (cs : List Char) : Prop :=
  ∃ inner, Derives .limited part inner ∧ cs = inner ++ [close]

theorem Gap.append {front back : List Char} (first : Gap front) (second : Gap back) :
    Gap (front ++ back) := by
  intro c member
  rcases List.mem_append.mp member with inFront | inBack
  · exact first c inFront
  · exact second c inBack

theorem Derives.behind {d : Dialect} {cs gap : List Char} (derived : Derives d .element cs)
    (blank : Gap gap) : Derives d .element (cs ++ gap) := by
  cases derived with
  | element before value after =>
      rw [List.append_assoc]
      exact .element before value (after.append blank)

/-- What is found behind blanks is found with them. -/
theorem element_finds {fuel : Nat} (cs : List Char)
    (value : Finds (Derives .limited .value) (Opens .value) (dropGap cs)
      (takeValue fuel (dropGap cs))) :
    Finds (Derives .limited .element) (Opens .element) cs (takeValue fuel (dropGap cs)) := by
  obtain ⟨gap, blank, same⟩ := dropGap_parts cs
  refine .after gap same.symm value (fun part derived => ?_) fun part => .element blank
  rw [← List.append_nil (gap ++ part)]
  exact .element blank derived .nil

/-- What is found behind the label of an entry. -/
theorem label_finds {fuel : Nat}
    (ofValue : ∀ cs, Finds (Derives .limited .value) (Opens .value) cs (takeValue fuel cs))
    (ofEntries : ∀ cs, Finds (Ends .members '\x7d') (Opens .members) cs
      (takeEntries fuel (dropGap cs)))
    (key : String) {label : List Char} (named : Label label) (cs : List Char) :
    Finds (Ends .members '\x7d') (Opens .members) (label ++ cs)
      (takeValue fuel (dropGap cs) >>= takeFurther fuel key) := by
  suffices entries : Finds (fun part => Ends .members '\x7d' (label ++ part))
      (fun part => Opens .members (label ++ part)) cs
      (takeValue fuel (dropGap cs) >>= takeFurther fuel key) from
    .after label rfl entries (fun _ => id) fun _ => id
  refine .bind (element_finds cs (ofValue _)) (fun _ => .firstMember named) ?_
  intro value part after same element
  obtain ⟨gap, blank, behind⟩ := dropGap_parts after
  have first := element.behind blank
  rw [← behind, ← List.append_assoc] at same
  simp only [takeFurther]
  split
  · rename_i rest more
    rw [more] at same
    refine .after (part ++ gap ++ [',']) (by simp [same])
      ((ofEntries rest).map ((Value.str key, value) :: ·)) ?_ ?_
    · rintro _ ⟨inner, derived, rfl⟩
      exact ⟨_, .nextMember named first derived, by simp⟩
    · intro front opens
      simpa using Opens.laterMember named first opens
  · rename_i rest closed
    rw [closed] at same
    refine .read ?_ ⟨label ++ (part ++ gap), .lastMember named first, (List.append_assoc ..).symm⟩
    simp [same]
  · exact .malformed

theorem take_finds (fuel : Nat) :
    (∀ cs, Finds (Derives .limited .value) (Opens .value) cs (takeValue fuel cs)) ∧
      (∀ cs, Finds (Ends .elements ']') (Opens .elements) cs (takeItems fuel (dropGap cs))) ∧
      ∀ cs, Finds (Ends .members '\x7d') (Opens .members) cs (takeEntries fuel (dropGap cs)) := by
  induction fuel with
  | zero => exact ⟨fun _ => .malformed, fun _ => .malformed, fun _ => .malformed⟩
  | succ fuel ih =>
      obtain ⟨ofValue, ofItems, ofEntries⟩ := ih
      refine ⟨?value, ?items, ?entries⟩
      case value =>
        intro cs
        simp only [takeValue]
        split
        · rename_i rest
          refine .after ['"'] rfl ((takeString_finds rest).map Value.str) ?_ fun _ => False.elim
          rintro _ ⟨inner, chars, rfl⟩
          exact .string chars
        · rename_i rest
          split
          · rename_i after closed
            obtain ⟨gap, blank, same⟩ := dropGap_parts rest
            refine .read ?_ (.emptyArray blank)
            rw [← same, closed]
            simp
          · refine .after ['['] rfl ((ofItems rest).map Value.list) ?_ fun _ => .inArray
            rintro _ ⟨inner, derived, rfl⟩
            exact .array derived
        · rename_i rest
          split
          · rename_i after closed
            obtain ⟨gap, blank, same⟩ := dropGap_parts rest
            refine .read ?_ (.emptyObject blank)
            rw [← same, closed]
            simp
          · refine .after ['\x7b'] rfl ((ofEntries rest).map Value.dictOf) ?_ fun _ => .inObject
            rintro _ ⟨inner, derived, rfl⟩
            exact .object derived
        · split
          · rename_i named
            obtain ⟨part, same, derived⟩ := takeNamed?_part named
            exact .read same derived
          · exact takeNumber_finds _
      case items =>
        intro cs
        simp only [takeItems]
        refine .bind (element_finds cs (ofValue _)) (fun _ => .firstElement) ?_
        intro item part after same element
        obtain ⟨gap, blank, behind⟩ := dropGap_parts after
        have first := element.behind blank
        rw [← behind, ← List.append_assoc] at same
        simp only
        split
        · rename_i rest more
          rw [more] at same
          refine .after (part ++ gap ++ [',']) (by simp [same])
            ((ofItems rest).map (item :: ·)) ?_ ?_
          · rintro _ ⟨inner, derived, rfl⟩
            exact ⟨_, .nextElement first derived, by simp⟩
          · intro front opens
            rw [List.append_assoc]
            exact .laterElement first opens
        · rename_i rest closed
          rw [closed] at same
          exact .read (by rw [same]; simp) ⟨part ++ gap, .lastElement first, rfl⟩
        · exact .malformed
      case entries =>
        intro cs
        obtain ⟨before, blank, split⟩ := dropGap_parts cs
        simp only [takeEntries]
        split
        · rename_i rest quote
          rw [quote] at split
          have named : Finds (fun part => ∃ inner, Chars inner ∧ part = before ++ quoted inner)
              (fun _ => False) cs (takeString rest) := by
            refine .after (before ++ ['"']) (by simp [← split])
              (takeString_finds rest) ?_ fun _ => id
            rintro _ ⟨inner, chars, rfl⟩
            exact ⟨inner, chars, by simp [quoted]⟩
          refine .bind named (fun _ => False.elim) ?_
          rintro key _ after same ⟨inner, chars, rfl⟩
          obtain ⟨behind, blankBehind, splitAfter⟩ := dropGap_parts after
          simp only
          split
          · rename_i rest colon
            rw [colon] at splitAfter
            obtain rfl : cs = before ++ quoted inner ++ behind ++ [':'] ++ rest := by
              simp [same, ← splitAfter]
            exact label_finds ofValue ofEntries key (.mk blank chars blankBehind) rest
          · exact .malformed
        · exact .malformed

/-! ## Whole texts -/

/-- What reading a text comes to, by what is at its front behind the blanks. -/
theorem read_eq {before cs : List Char} {text : String} (same : text.toList = before ++ cs)
    (blank : Gap before) (solid : dropGap cs = cs) :
    read text = takeValue (depthOf cs) cs >>= fun taken =>
      if (dropGap taken.2).isEmpty then .ok taken.1 else .error .malformed := by
  simp only [read, same, dropGap_gap blank, solid]
  rfl

/-- A text of a dialect is read, but for whole numbers that are too long. -/
theorem Derives.read {d : Dialect} (words : ∀ word ∈ d.words, word ∈ Dialect.extended.words)
    {text : String} (derived : Derives d .element text.toList) :
    (∃ value, read text = .ok value) ∨
      ∃ count, d.Fits count ∧ digitLimit < count ∧ read text = .error (.tooManyDigits count) := by
  generalize same : text.toList = cs at derived
  cases derived with
  | @element before cs after blank value behind =>
      have stops : Stops after := by simpa using Stops.nil.gap behind
      have nothing : dropGap after = [] := by simpa [dropGap] using dropGap_gap behind []
      have solid : dropGap (cs ++ after) = cs ++ after :=
        dropGap_value (value.taken words after _ stops (Nat.le_refl _)).not_malformed
      have enough : 2 * cs.length + 1 ≤ depthOf (cs ++ after) := by
        simp only [depthOf, List.length_append]
        omega
      have comes := value.taken words after _ stops enough
      rw [List.append_assoc] at same
      rw [read_eq same blank solid]
      generalize takeValue (depthOf (cs ++ after)) (cs ++ after) = result at comes
      cases comes with
      | read found => exact .inl ⟨found, by simp [Bind.bind, Except.bind, nothing]⟩
      | long fits beyond => exact .inr ⟨_, fits, beyond, rfl⟩

theorem RunsLong.read {count : Nat} {text : String} (long : RunsLong count text.toList) :
    read text = .error (.tooManyDigits count) := by
  obtain ⟨front, back, same, opens, begins⟩ := long
  cases opens with
  | @element before cs blank value =>
      have reports := value.reports begins
      have solid : dropGap (cs ++ back) = cs ++ back :=
        dropGap_value (by rw [reports _ (Nat.le_refl _)]; nofun)
      have enough : 2 * cs.length + 1 ≤ depthOf (cs ++ back) := by
        simp only [depthOf, List.length_append]
        omega
      rw [List.append_assoc] at same
      rw [read_eq same blank solid, reports _ enough]
      rfl

/-- What reading a text comes to. -/
theorem read_outcome (text : String) :
    (∃ value, read text = .ok value ∧ Derives .limited .element text.toList) ∨
      read text = .error .malformed ∨
        ∃ count, read text = .error (.tooManyDigits count) ∧ RunsLong count text.toList := by
  obtain ⟨gap, blank, same⟩ := dropGap_parts text.toList
  rw [read_eq same.symm blank (List.dropWhile_idempotent ..)]
  have finds := element_finds text.toList
    ((take_finds (depthOf (dropGap text.toList))).1 (dropGap text.toList))
  generalize takeValue (depthOf (dropGap text.toList)) (dropGap text.toList) = result at finds
  cases finds with
  | @read value front after split derived =>
      simp only [Bind.bind, Except.bind]
      split
      · rename_i ended
        obtain ⟨behind, blankBehind, rest⟩ := dropGap_parts after
        rw [List.isEmpty_iff.mp ended, List.append_nil] at rest
        exact .inl ⟨value, rfl, split ▸ derived.behind (rest ▸ blankBehind)⟩
      · exact .inr (.inl rfl)
  | malformed => exact .inr (.inl rfl)
  | long split before begins => exact .inr (.inr ⟨_, rfl, _, _, split, before, begins⟩)

theorem read_ok_iff {text : String} :
    (∃ value, read text = .ok value) ↔ Derives .limited .element text.toList := by
  constructor
  · rintro ⟨value, taken⟩
    rcases read_outcome text with ⟨_, _, derived⟩ | malformed | ⟨_, long, _⟩
    · exact derived
    · nomatch malformed.symm.trans taken
    · nomatch long.symm.trans taken
  · intro derived
    rcases derived.read (d := .limited) (fun _ => id) with read | ⟨_, fits, beyond, _⟩
    · exact read
    · exact absurd fits (Nat.not_le.mpr beyond)

theorem read_tooManyDigits_iff {text : String} {count : Nat} :
    read text = .error (.tooManyDigits count) ↔ RunsLong count text.toList := by
  refine ⟨fun long => ?_, RunsLong.read⟩
  rcases read_outcome text with ⟨_, taken, _⟩ | malformed | ⟨_, other, runs⟩
  · nomatch taken.symm.trans long
  · nomatch malformed.symm.trans long
  · obtain rfl := ReadFault.tooManyDigits.inj (Except.error.inj (other.symm.trans long))
    exact runs

/-- In a text of the extended language, the numbers fit or the first that does not is found. -/
theorem derives_limited_iff {text : String} : Derives .limited .element text.toList ↔
    Derives .extended .element text.toList ∧ ∀ count, ¬RunsLong count text.toList := by
  constructor
  · intro derived
    refine ⟨derived.of_limited, fun count long => ?_⟩
    obtain ⟨value, taken⟩ := read_ok_iff.mpr derived
    nomatch taken.symm.trans long.read
  · intro ⟨derived, short⟩
    rcases derived.read (d := .extended) (fun _ => id) with read | ⟨count, _, _, long⟩
    · exact read_ok_iff.mp read
    · exact absurd (read_tooManyDigits_iff.mp long) (short count)

/-- Reading decides: a text of the extended language is read if no whole number is too long, and
else the first that is decides, whether the text is of the language or not. -/
theorem read_decides (text : String) :
    (∃ value, read text = .ok value) ∧ Derives .extended .element text.toList ∧
        (∀ count, ¬RunsLong count text.toList) ∨
      read text = .error .malformed ∧ ¬Derives .extended .element text.toList ∧
        (∀ count, ¬RunsLong count text.toList) ∨
      ∃ count, read text = .error (.tooManyDigits count) ∧
        ∀ other, RunsLong other text.toList ↔ other = count := by
  rcases read_outcome text with ⟨value, taken, derived⟩ | malformed | ⟨count, taken, long⟩
  · have ⟨extended, short⟩ := derives_limited_iff.mp derived
    exact .inl ⟨⟨value, taken⟩, extended, short⟩
  · have short (count : Nat) : ¬RunsLong count text.toList := by
      intro long
      cases malformed.symm.trans long.read
    refine .inr (.inl ⟨malformed, fun extended => ?_, short⟩)
    obtain ⟨value, taken⟩ := read_ok_iff.mpr (derives_limited_iff.mpr ⟨extended, short⟩)
    cases malformed.symm.trans taken
  · refine .inr (.inr ⟨count, taken, fun other => ⟨fun runs => ?_, ?_⟩⟩)
    · exact ReadFault.tooManyDigits.inj (Except.error.inj (runs.read.symm.trans taken))
    · rintro rfl
      exact long

theorem read_malformed_iff {text : String} : read text = .error .malformed ↔
    ¬Derives .extended .element text.toList ∧ ∀ count, ¬RunsLong count text.toList := by
  rcases read_decides text with
    ⟨⟨_, taken⟩, derived, _⟩ | ⟨taken, foreign, short⟩ | ⟨_, taken, long⟩
  · simp [taken, derived]
  · simp [taken, foreign, short]
  · simp [taken, long]

end FieldRules.Json
