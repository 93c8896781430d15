import FieldRules.Proofs.Format.Email
import FieldRules.Proofs.Format.Url.Grammar

/-! # Recognising web addresses

The text is taken apart at the first characters that may end the host and the port, and the domain
at its dots. A text is accepted just if it is an address in the wide reading, or such an address
with a line feed behind it.
-/

namespace FieldRules.Format.Url

open Text

/-! ## The parts that are recognised -/

theorem isLabelChar_iff {c : Char} :
    isLabelChar c = true ↔ Alphabet.wide.isWordChar c = true ∨ c = '-' := by
  rw [isLabelChar, Bool.or_eq_true, beq_iff_eq]
  rfl

theorem isLabel_iff {cs : List Char} : isLabel cs = true ↔ Label .wide cs := by
  constructor
  · intro accepted
    simp only [isLabel, Bool.and_eq_true, decide_eq_true_eq, List.all_eq_true] at accepted
    obtain ⟨⟨⟨short, chars⟩, first⟩, last⟩ := accepted
    refine ⟨?_, short, fun c inside => isLabelChar_iff.mp (chars c inside), ?_, ?_⟩
    · rintro rfl
      nomatch first
    · intro same
      rw [same] at first
      nomatch first
    · intro same
      rw [same] at last
      nomatch last
  · rintro ⟨nonempty, short, chars, first, last⟩
    have word {c : Char} (inside : c ∈ cs) (other : c ≠ '-') : isWordChar c = true :=
      (chars c inside).resolve_right other
    have begins := List.head?_eq_some_head nonempty
    have ends := List.getLast?_eq_some_getLast nonempty
    rw [begins] at first
    rw [ends] at last
    have firstWord := word (List.head_mem nonempty) fun same => first (congrArg some same)
    have lastWord := word (List.getLast_mem nonempty) fun same => last (congrArg some same)
    simp only [isLabel, Bool.and_eq_true, decide_eq_true_eq, List.all_eq_true, begins, ends,
      Option.map_some, Option.getD_some]
    exact ⟨⟨⟨short, fun c inside => isLabelChar_iff.mpr (chars c inside)⟩, firstWord⟩, lastWord⟩

theorem isTopLabel_iff {cs : List Char} : isTopLabel cs = true ↔ TopLabel .wide cs := by
  simp only [isTopLabel, Bool.and_eq_true, decide_eq_true_eq, List.all_eq_true]
  constructor
  · rintro ⟨⟨long, short⟩, letters⟩
    exact ⟨long, short, letters⟩
  · rintro ⟨long, short, letters⟩
    exact ⟨⟨long, short⟩, letters⟩

theorem isShortNumber_iff {cs : List Char} : isShortNumber cs = true ↔ ShortNumber .wide cs := by
  simp only [isShortNumber, Bool.and_eq_true, decide_eq_true_eq, List.all_eq_true]
  constructor
  · rintro ⟨⟨long, short⟩, digits⟩
    exact ⟨List.length_pos_iff.mp long, short, digits⟩
  · rintro ⟨nonempty, short, digits⟩
    exact ⟨⟨List.length_pos_iff.mpr nonempty, short⟩, digits⟩

theorem isPath_iff {cs : List Char} : isPath cs = true ↔ Path cs := by
  constructor
  · intro accepted
    unfold isPath at accepted
    split at accepted
    · exact .none
    · rename_i rest
      simp only [List.all_eq_true, Bool.not_eq_true'] at accepted
      cases rest with
      | nil => exact .root
      | cons c rest => exact .given (.inl rfl) (List.cons_ne_nil c rest) accepted
    · simp only [Bool.and_eq_true, Bool.not_eq_true', List.isEmpty_eq_false_iff,
        List.all_eq_true] at accepted
      exact .given (.inr rfl) accepted.1 accepted.2
    · nomatch accepted
  · rintro (_ | _ | ⟨rfl | rfl, nonempty, visible⟩)
    · rfl
    · rfl
    · simpa [isPath] using visible
    · simpa [isPath, nonempty] using visible

theorem withoutFinalDot_eq {pieces labels : List (List Char)}
    (same : withoutFinalDot pieces = labels) : pieces = labels ∨ pieces = labels ++ [[]] := by
  rw [withoutFinalDot] at same
  split at same
  · rename_i dotted
    obtain ⟨front, rfl⟩ := List.getLast?_eq_some_iff.mp dotted
    rw [List.dropLast_concat] at same
    exact .inr (by rw [same])
  · exact .inl same

theorem Label.dotless {label : List Char} (labelled : Label .wide label) : '.' ∉ label := by
  intro inside
  rcases labelled.chars '.' inside with word | same
  · exact (word_plain word).2 (by decide)
  · nomatch same

theorem TopLabel.dotless {top : List Char} (topped : TopLabel .wide top) : '.' ∉ top := by
  intro inside
  exact absurd (topped.letters '.' inside) (by decide)

theorem TopLabel.nonempty {top : List Char} (topped : TopLabel .wide top) : top ≠ [] := by
  rintro rfl
  exact absurd topped.long (by decide)

/-- A final dot leaves an empty piece behind the top-level label, which is dropped. -/
theorem withoutFinalDot_splitOn {labels : List (List Char)} {top dot : List Char}
    (each : ∀ label ∈ labels, Label .wide label) (topped : TopLabel .wide top)
    (dotted : dot = [] ∨ dot = ['.']) :
    withoutFinalDot (splitOn '.' (labels.flatMap (· ++ ['.']) ++ (top ++ dot))) =
      labels ++ [top] := by
  have whole : ∀ piece ∈ labels ++ [top], '.' ∉ piece := by
    refine List.forall_mem_append.mpr ⟨fun label member => (each label member).dotless, ?_⟩
    exact List.forall_mem_singleton.mpr topped.dotless
  rcases dotted with rfl | rfl
  · have parts : Separated '.' (labels.flatMap (· ++ ['.']) ++ (top ++ [])) (labels ++ [top]) :=
      ⟨by simp, whole, by rw [intercalate_concat, List.append_nil]⟩
    rw [← separated_iff.mp parts, withoutFinalDot, List.getLast?_concat, if_neg]
    exact fun same => topped.nonempty (Option.some.inj same)
  · have parts : Separated '.' (labels.flatMap (· ++ ['.']) ++ (top ++ ['.']))
        (labels ++ [top] ++ [[]]) := by
      refine ⟨by simp, List.forall_mem_append.mpr ⟨whole, by simp⟩, ?_⟩
      rw [intercalate_concat]
      simp
    rw [← separated_iff.mp parts, withoutFinalDot, List.getLast?_concat, if_pos rfl,
      List.dropLast_concat]

theorem isDomain_iff {cs : List Char} :
    isDomain cs = true ↔ ∃ labels top dot, labels ≠ [] ∧ (∀ label ∈ labels, Label .wide label) ∧
      TopLabel .wide top ∧ (dot = [] ∨ dot = ['.']) ∧
      cs = labels.flatMap (· ++ ['.']) ++ (top ++ dot) := by
  constructor
  · intro accepted
    have joined : ['.'].intercalate (splitOn '.' cs) = cs := (separated_iff.mpr rfl).joined
    simp only [isDomain] at accepted
    generalize kept : withoutFinalDot (splitOn '.' cs) = all at accepted
    obtain ⟨⟨long, each⟩, topped⟩ := by
      simpa only [Bool.and_eq_true, decide_eq_true_eq, List.all_eq_true] using accepted
    rcases List.eq_nil_or_concat' all with rfl | ⟨labels, top, rfl⟩
    · nomatch topped
    simp only [List.dropLast_concat, List.getLast?_concat, Option.map_some, Option.getD_some,
      List.length_append, List.length_singleton] at long each topped
    have some : labels ≠ [] := by
      rintro rfl
      nomatch long
    have labelled : ∀ label ∈ labels, Label .wide label := fun label member =>
      isLabel_iff.mp (each label member)
    rcases withoutFinalDot_eq kept with pieces | pieces
    · refine ⟨labels, top, [], some, labelled, isTopLabel_iff.mp topped, .inl rfl, ?_⟩
      rw [← joined, pieces, intercalate_concat, List.append_nil]
    · refine ⟨labels, top, ['.'], some, labelled, isTopLabel_iff.mp topped, .inr rfl, ?_⟩
      rw [← joined, pieces, intercalate_concat]
      simp
  · rintro ⟨labels, top, dot, some, each, topped, dotted, rfl⟩
    have long : 2 ≤ (labels ++ [top]).length := by
      have := List.length_pos_iff.mpr some
      rw [List.length_append, List.length_singleton]
      omega
    simp only [isDomain, withoutFinalDot_splitOn each topped dotted, List.dropLast_concat,
      List.getLast?_concat, Option.map_some, Option.getD_some, Bool.and_eq_true,
      decide_eq_true_eq, List.all_eq_true]
    exact ⟨⟨long, fun label member => isLabel_iff.mpr (each label member)⟩,
      isTopLabel_iff.mpr topped⟩

theorem ShortNumber.dotless {cs : List Char} (number : ShortNumber .wide cs) : '.' ∉ cs := by
  intro inside
  have digit : isDigit '.' = true := number.digits '.' inside
  exact (digit_plain digit).2 (by decide)

theorem isQuad_iff {cs : List Char} :
    isQuad cs = true ↔ ∃ w x y z, ShortNumber .wide w ∧ ShortNumber .wide x ∧
      ShortNumber .wide y ∧ ShortNumber .wide z ∧
        cs = w ++ '.' :: (x ++ '.' :: (y ++ '.' :: z)) := by
  have joined (w x y z : List Char) :
      ['.'].intercalate [w, x, y, z] = w ++ '.' :: (x ++ '.' :: (y ++ '.' :: z)) := by
    simp [List.intercalate_cons_cons]
  constructor
  · intro accepted
    have whole : ['.'].intercalate (splitOn '.' cs) = cs := (separated_iff.mpr rfl).joined
    simp only [isQuad, Bool.and_eq_true, beq_iff_eq, List.all_eq_true] at accepted
    obtain ⟨four, each⟩ := accepted
    obtain ⟨w, x, y, z, pieces⟩ := List.length_eq_four.mp four
    rw [pieces] at each whole
    simp only [List.forall_mem_cons, isShortNumber_iff] at each
    obtain ⟨first, second, third, fourth, _⟩ := each
    exact ⟨w, x, y, z, first, second, third, fourth, by rw [← joined, whole]⟩
  · rintro ⟨w, x, y, z, first, second, third, fourth, rfl⟩
    have parts : Separated '.' (w ++ '.' :: (x ++ '.' :: (y ++ '.' :: z))) [w, x, y, z] := by
      refine ⟨List.cons_ne_nil _ _, ?_, joined w x y z⟩
      simp [first.dotless, second.dotless, third.dotless, fourth.dotless]
    simp [isQuad, ← separated_iff.mp parts, isShortNumber_iff, first, second, third, fourth]

theorem isHost_iff {cs : List Char} : isHost cs = true ↔ Host .wide cs := by
  simp only [isHost, Bool.or_eq_true, beq_iff_eq]
  constructor
  · rintro ((domain | word) | quad)
    · obtain ⟨labels, top, dot, some, each, topped, dotted, rfl⟩ := isDomain_iff.mp domain
      exact .domain some each topped dotted
    · exact .word word
    · obtain ⟨w, x, y, z, first, second, third, fourth, rfl⟩ := isQuad_iff.mp quad
      exact .quad first second third fourth
  · rintro (⟨some, each, topped, dotted⟩ | word | ⟨first, second, third, fourth⟩)
    · exact .inl (.inl (isDomain_iff.mpr ⟨_, _, _, some, each, topped, dotted, rfl⟩))
    · exact .inl (.inr word)
    · exact .inr (isQuad_iff.mpr ⟨_, _, _, _, first, second, third, fourth, rfl⟩)

/-! ## Taking an address apart -/

theorem span_ends {ends : Char → Bool} {before after : List Char}
    (within : ∀ c ∈ before, ends c = false) (stops : ∀ c ∈ after.head?, ends c = true) :
    (before ++ after).takeWhile (fun c => !ends c) = before ∧
      (before ++ after).dropWhile (fun c => !ends c) = after := by
  have passes : ∀ c ∈ before, (!ends c) = true := by
    intro c inside
    rw [within c inside]
    rfl
  rw [List.takeWhile_append_of_pos passes, List.dropWhile_append_of_pos passes]
  cases after with
  | nil => simp
  | cons c rest =>
      have stop : ends c = true := stops c rfl
      simp [stop]

theorem Path.starts {cs : List Char} (path : Path cs) : ∀ c ∈ cs.head?, endsPort c = true := by
  cases path with
  | none => exact fun c none => nomatch none
  | root =>
      rintro c ⟨⟩
      rfl
  | given marked =>
      rintro c ⟨⟩
      rcases marked with rfl | rfl <;> rfl

/-- What may stand behind the host is a port and a path. -/
theorem isTail_iff {cs : List Char} :
    isTail cs = true ↔ ∃ port path, Port .wide port ∧ Path path ∧ cs = port ++ path := by
  constructor
  · intro accepted
    unfold isTail at accepted
    split at accepted
    · rename_i rest
      simp only [Bool.and_eq_true, Bool.not_eq_true', List.isEmpty_eq_false_iff,
        List.all_eq_true] at accepted
      obtain ⟨⟨some, digits⟩, pathed⟩ := accepted
      refine ⟨_, _, .given some digits, isPath_iff.mp pathed, ?_⟩
      rw [List.cons_append, List.takeWhile_append_dropWhile]
    · exact ⟨[], cs, .none, isPath_iff.mp accepted, rfl⟩
  · rintro ⟨_, path, _ | ⟨some, digits⟩, pathed, rfl⟩
    · have accepted := isPath_iff.mpr pathed
      cases pathed with
      | none => rfl
      | root => rfl
      | given marked =>
          rcases marked with rfl | rfl <;> exact accepted
    · rename_i number
      have within : ∀ c ∈ number, endsPort c = false := fun c inside =>
        endsPort_inner (isInner_digit c (digits c inside))
      obtain ⟨before, after⟩ := span_ends within pathed.starts
      simp only [List.cons_append, isTail, before, after, Bool.and_eq_true, Bool.not_eq_true',
        List.isEmpty_eq_false_iff, List.all_eq_true]
      exact ⟨⟨some, digits⟩, isPath_iff.mpr pathed⟩

theorem scheme_iff {cs : List Char} : Scheme .wide cs ↔ ∃ four, four.map folded = "http".toList ∧
    (cs = four ∨ ∃ c, folded c = 's' ∧ cs = four ++ [c]) := by
  have secure : "https".toList = "http".toList ++ ['s'] := rfl
  constructor
  · rintro (plain | more)
    · exact ⟨cs, plain, .inl rfl⟩
    · obtain ⟨four, last, rfl, plain, small⟩ := List.map_eq_append_iff.mp (more.trans secure)
      obtain ⟨c, rfl, same⟩ := List.map_eq_singleton_iff.mp small
      exact ⟨four, plain, .inr ⟨c, same, rfl⟩⟩
  · rintro ⟨four, plain, rfl | ⟨c, small, rfl⟩⟩
    · exact .inl plain
    · refine .inr ?_
      have letter : Alphabet.wide.small c = 's' := small
      rw [List.map_append, List.map_singleton, letter, secure]
      exact congrArg (· ++ ['s']) plain

theorem afterScheme?_append {four left : List Char} (known : four.map folded = "http".toList) :
    afterScheme? (four ++ left) =
      let rest := if left.head?.map folded = some 's' then left.drop 1 else left
      if rest.take 3 = "://".toList then some (rest.drop 3) else none := by
  have length : four.length = 4 := by simpa using congrArg List.length known
  rw [afterScheme?, List.take_left' length, List.drop_left' length, if_pos known]

theorem afterScheme?_iff {cs rest : List Char} :
    afterScheme? cs = some rest ↔
      ∃ scheme, Scheme .wide scheme ∧ cs = scheme ++ "://".toList ++ rest := by
  have slashed {left : List Char} :
      (if left.take 3 = "://".toList then some (left.drop 3) else none) = some rest ↔
        left = "://".toList ++ rest := by
    constructor
    · intro found
      split at found
      · rename_i front
        rw [← Option.some.inj found, ← front, List.take_append_drop]
      · nomatch found
    · rintro rfl
      rfl
  constructor
  · intro found
    have http : (cs.take 4).map folded = "http".toList := by
      by_contra other
      rw [afterScheme?, if_neg other] at found
      nomatch found
    rw [← List.take_append_drop 4 cs, afterScheme?_append http] at found
    have parts := List.take_append_drop 4 cs
    generalize cs.take 4 = four at http parts
    generalize cs.drop 4 = left at found parts
    obtain rfl := parts
    simp only at found
    split at found
    · rename_i secure
      obtain ⟨c, head, small⟩ := Option.map_eq_some_iff.mp secure
      obtain ⟨left, rfl⟩ := List.head?_eq_some_iff.mp head
      rw [List.drop_succ_cons, List.drop_zero, slashed] at found
      exact ⟨four ++ [c], scheme_iff.mpr ⟨four, http, .inr ⟨c, small, rfl⟩⟩, by simp [found]⟩
    · rw [slashed] at found
      exact ⟨four, scheme_iff.mpr ⟨four, http, .inl rfl⟩, by simp [found]⟩
  · rintro ⟨scheme, schemed, rfl⟩
    obtain ⟨four, http, rfl | ⟨c, small, rfl⟩⟩ := scheme_iff.mp schemed
    · have insecure : ¬("://".toList ++ rest).head?.map folded = some 's' := by
        intro same
        have other : folded ':' ≠ 's' := by decide
        exact other (Option.some.inj same)
      rw [List.append_assoc, afterScheme?_append http]
      simp only [if_neg insecure, slashed]
    · have secure : ([c] ++ ("://".toList ++ rest)).head?.map folded = some 's' := by
        simpa using small
      rw [List.append_assoc, List.append_assoc, afterScheme?_append http]
      simp only [if_pos secure]
      exact slashed.mpr rfl

/-- The recogniser and the grammar in its wide reading agree. -/
theorem isAddress_iff {cs : List Char} : isAddress cs = true ↔ Address .wide cs := by
  constructor
  · intro accepted
    unfold isAddress at accepted
    split at accepted
    · nomatch accepted
    · rename_i rest found
      obtain ⟨scheme, schemed, rfl⟩ := afterScheme?_iff.mp found
      obtain ⟨hosted, tailed⟩ := Bool.and_eq_true_iff.mp accepted
      obtain ⟨port, path, ported, pathed, whole⟩ := isTail_iff.mp tailed
      have parts : rest = rest.takeWhile (fun c => !endsHost c) ++ (port ++ path) := by
        rw [← whole, List.takeWhile_append_dropWhile]
      have address := Address.mk (.mk schemed (isHost_iff.mp hosted) ported) pathed
      simp only [List.append_assoc] at address ⊢
      rwa [← parts] at address
  · rintro ⟨⟨schemed, hosted, ported⟩, pathed⟩
    rename_i path scheme host port
    have found : afterScheme? (scheme ++ "://".toList ++ (host ++ port) ++ path) =
        some (host ++ (port ++ path)) :=
      afterScheme?_iff.mpr ⟨scheme, schemed, by simp only [List.append_assoc]⟩
    have within : ∀ c ∈ host, endsHost c = false := fun c inside => (hosted.inner c inside).2
    have stops : ∀ c ∈ (port ++ path).head?, endsHost c = true := by
      cases ported with
      | none =>
          intro c first
          have ending := pathed.starts c first
          simp only [endsPort, Bool.or_eq_true] at ending
          simpa [endsHost, or_assoc] using Or.inr ending
      | given =>
          rintro c ⟨⟩
          rfl
    obtain ⟨before, after⟩ := span_ends within stops
    rw [isAddress, found]
    simp only [before, after, isHost_iff.mpr hosted, Bool.true_and]
    exact isTail_iff.mpr ⟨port, path, ported, pathed, rfl⟩

theorem accepts_iff {s : String} :
    accepts s = true ↔ ∃ w, Address .wide w ∧ (s.toList = w ∨ s.toList = w ++ ['\n']) := by
  rw [accepts, isAddress_iff]
  exact withoutFinalBreak_iff (fun _ => Address.unbroken) s.toList

/-- An address has one front. -/
theorem front_unique {front path other behind : List Char} (fronted : Front .wide front)
    (pathed : Path path) (otherFronted : Front .wide other) (behindPathed : Path behind)
    (same : front ++ path = other ++ behind) : front = other := by
  have rest {front path : List Char} (fronted : Front .wide front) (pathed : Path path) :
      ∃ body, afterScheme? (front ++ path) = some body ∧
        body.dropWhile (fun c => !endsPort c) = path := by
    cases fronted with
    | mk schemed hosted ported =>
        rename_i scheme host port
        have within : ∀ c ∈ host ++ port, endsPort c = false := by
          refine List.forall_mem_append.mpr
            ⟨fun c inside => endsPort_inner (hosted.inner c inside), ?_⟩
          exact ported.forall (fun c digit => endsPort_inner (isInner_digit c digit)) rfl
        refine ⟨host ++ port ++ path, afterScheme?_iff.mpr ⟨scheme, schemed, by simp⟩, ?_⟩
        exact (span_ends within pathed.starts).2
  obtain ⟨body, found, left⟩ := rest fronted pathed
  obtain ⟨otherBody, otherFound, otherLeft⟩ := rest otherFronted behindPathed
  rw [same, otherFound] at found
  obtain rfl := Option.some.inj found
  rw [← left, otherLeft] at same
  exact List.append_cancel_right same

/-- The texts on which acceptance and the strict reading agree: no line feed is behind an address,
    and an address has its scheme, host and port in ASCII. -/
theorem accepts_iff_strict {s : String} :
    (accepts s = true ↔ Address .ascii s.toList) ↔
      (¬∃ w, Address .wide w ∧ s.toList = w ++ ['\n']) ∧
        ∀ front path, Front .wide front → Path path → s.toList = front ++ path →
          ∀ c ∈ front, c.toNat < 128 := by
  rw [accepts_iff]
  constructor
  · intro agree
    refine ⟨?_, ?_⟩
    · rintro ⟨w, address, broken⟩
      have strict := agree.mp ⟨w, address, .inr broken⟩
      refine strict.widen.unbroken ?_
      rw [broken, List.getLast?_concat]
    · intro front path fronted pathed whole
      have strict := agree.mp ⟨_, .mk fronted pathed, .inl whole⟩
      generalize s.toList = cs at strict whole
      obtain ⟨strictFront, strictPath⟩ := strict
      obtain ⟨alsoFront, ascii⟩ := front_ascii_iff.mp strictFront
      rwa [front_unique fronted pathed alsoFront strictPath whole.symm]
  · rintro ⟨unbroken, ascii⟩
    constructor
    · rintro ⟨w, address, whole | broken⟩
      · obtain ⟨fronted, pathed⟩ := address
        rw [whole]
        exact .mk (front_ascii_iff.mpr ⟨fronted, ascii _ _ fronted pathed whole⟩) pathed
      · exact absurd ⟨w, address, broken⟩ unbroken
    · intro strict
      exact ⟨_, strict.widen, .inl rfl⟩

end FieldRules.Format.Url
