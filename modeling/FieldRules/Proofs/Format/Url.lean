import FieldRules.Pattern.Reader
import FieldRules.Proofs.Format.Url.Recognition
import FieldRules.Proofs.Pattern.Folding
import FieldRules.Proofs.Pattern.Language
import FieldRules.Rule.Check

/-! # The pattern of web addresses

The pattern of addresses, matched in either case, has the addresses of the wide reading as its
words, although its parts overlap: a label may be a top-level label, and `localhost` a label.
-/

namespace FieldRules

open Text

namespace Format.Url

open Pattern

/-- The pattern of addresses. -/
def source : String :=
  "^https?://(?:(?:[A-Z0-9](?:[A-Z0-9-]\x7b0,61\x7d[A-Z0-9])?\\.)+[A-Z]\x7b2,6\x7d\\.?|" ++
    "localhost|\\d\x7b1,3\x7d\\.\\d\x7b1,3\x7d\\.\\d\x7b1,3\x7d\\.\\d\x7b1,3\x7d)(?::\\d+)?" ++
    "(?:/?|[/?]\\S+)$"

def character (c : Char) : Node := .literal c.toNat false

def optional (body : Node) : Node := .repeated .greedy 0 (some 1) body

def grouped (body : Node) : Node := .scoped {} body

def spelled : List Char → Node
  | [] => .empty
  | [c] => character c
  | c :: rest => .seq (character c) (spelled rest)

def letterItems : List SetItem := [.range 65 90]

def wordItems : List SetItem := [.range 65 90, .range 48 57]

def labelItems : List SetItem := [.range 65 90, .range 48 57, .code 45]

def digitItems : List SetItem := [.named .digit false]

def visibleItems : List SetItem := [.named .blank true]

def markItems : List SetItem := [.code 47, .code 63]

/-- A label and the dot behind it. -/
def labelPart : Node :=
  grouped (.seq (.set false wordItems) (.seq (optional (grouped (.seq
    (.repeated .greedy 0 (some 61) (.set false labelItems)) (.set false wordItems))))
      (character '.')))

def domainPart : Node :=
  .seq (.repeated .greedy 1 none labelPart)
    (.seq (.repeated .greedy 2 (some 6) (.set false letterItems)) (optional (character '.')))

def numberPart : Node := .repeated .greedy 1 (some 3) (.set false digitItems)

def quadPart : Node :=
  .seq numberPart (.seq (character '.') (.seq numberPart (.seq (character '.')
    (.seq numberPart (.seq (character '.') numberPart)))))

def hostPart : Node :=
  grouped (.either domainPart (.either (spelled "localhost".toList) quadPart))

def portPart : Node :=
  optional (grouped (.seq (character ':') (.repeated .greedy 1 none (.set false digitItems))))

def pathPart : Node :=
  grouped (.either (optional (character '/'))
    (.seq (.set false markItems) (.repeated .greedy 1 none (.set false visibleItems))))

def schemeParts : List Node := "http".toList.map character ++ [optional (character 's')]

/-- The parts of the pattern between its anchors. -/
def parts : List Node :=
  schemeParts ++ "://".toList.map character ++ [hostPart, portPart, pathPart]

theorem read_source : Pattern.read source = .ok ⟨source, {}, .line parts, []⟩ := by decide +kernel

/-! ## Sets of the pattern -/

/-- The characters that the pattern spells. -/
def spelt : List Char := "https:/localhost.".toList

/-- Those of them that are no letters. -/
def signs : List Char := ":/.".toList

theorem literal_eq : ∀ c, ∀ mark ∈ spelt,
    isLiteral anyCase mark.toNat false c = (folded c == mark) := by
  refine forall_char (by decide +kernel) (by decide) fun c foreign mark member => ?_
  have small : ∀ mark ∈ spelt, mark.toNat < 128 := by decide
  have ascii := small mark member
  rw [isLiteral_foreign ascii foreign, folded_foreign foreign,
    beq_false_of_ne (foreign.ne_ascii ascii)]

theorem inSet_word : ∀ c, inSet anyCase false wordItems c = isWordChar c :=
  inSet_eq (by decide) (by decide) (by decide) isWordChar_foreign

theorem inSet_letter : ∀ c, inSet anyCase false letterItems c = isLetter c :=
  inSet_eq (by decide) (by decide) (by decide) isLetter_foreign

theorem inSet_label : ∀ c, inSet anyCase false labelItems c = isLabelChar c := by
  refine inSet_eq (by decide) (by decide) (by decide) fun foreign => ?_
  rw [isLabelChar, isWordChar_foreign foreign, beq_false_of_ne (foreign.ne_ascii (by decide))]
  rfl

theorem inSet_mark : ∀ c, inSet anyCase false markItems c = endsPort c := by
  refine inSet_eq (by decide) (by decide) (by decide) fun foreign => ?_
  rw [endsPort, beq_false_of_ne (foreign.ne_ascii (by decide)),
    beq_false_of_ne (foreign.ne_ascii (by decide))]
  rfl

theorem inSet_digit (c : Char) : inSet anyCase false digitItems c = isDigit c := by
  rw [digitItems, inSet_named]
  simp [CharClass.holds, Char.ofNat_toNat, isDigit_lowerChar]

theorem inSet_visible (c : Char) : inSet anyCase false visibleItems c = !isBlank c := by
  rw [visibleItems, inSet_named]
  simp [CharClass.holds, Char.ofNat_toNat, isBlank_lowerChar]

/-! ## Words of the parts -/

theorem changed_nothing (flags : Flags) : flags.changed {} = flags := by
  cases flags
  simp [Flags.changed]

theorem language_grouped (body : Node) :
    (grouped body).language anyCase = body.language anyCase := by
  rw [grouped, Node.language_scoped, changed_nothing]

theorem mem_optional {body : Node} {w : List Char} :
    w ∈ (optional body).language anyCase ↔ w = [] ∨ w ∈ body.language anyCase := Node.mem_optional

theorem mem_character {mark : Char} (known : mark ∈ spelt) {w : List Char} :
    w ∈ (character mark).language anyCase ↔ ∃ c, folded c = mark ∧ w = [c] := by
  rw [character, Node.language_literal, mem_single]
  simp only [literal_eq _ mark known, beq_iff_eq]

theorem folded_sign : ∀ c, ∀ sign ∈ signs, folded c = sign → c = sign := by
  refine forall_char (by decide) (by decide) fun c foreign sign _ same => ?_
  rwa [folded_foreign foreign] at same

theorem folded_self : ∀ sign ∈ signs, folded sign = sign := by decide

theorem mem_sign {sign : Char} (known : sign ∈ signs) {w : List Char} :
    w ∈ (character sign).language anyCase ↔ w = [sign] := by
  have spelled : ∀ sign ∈ signs, sign ∈ spelt := by decide
  rw [mem_character (spelled sign known)]
  constructor
  · rintro ⟨c, small, rfl⟩
    rw [folded_sign c sign known small]
  · rintro rfl
    exact ⟨sign, folded_self sign known, rfl⟩

/-- A spelled word stands for all words with its small letters. -/
theorem mem_words {word : List Char} (known : word ⊆ spelt) {w : List Char} :
    w ∈ ((word.map character).map (Node.language anyCase)).prod ↔ w.map folded = word := by
  induction word generalizing w with
  | nil => simp [Language.mem_one]
  | cons mark rest ih =>
      obtain ⟨here, later⟩ := List.cons_subset.mp known
      simp only [List.map_cons, List.prod_cons, Language.mem_mul, mem_character here, ih later]
      constructor
      · rintro ⟨_, ⟨c, small, rfl⟩, others, same, rfl⟩
        rw [List.singleton_append, List.map_cons, small, same]
      · intro same
        obtain ⟨c, others, rfl, small, same⟩ := List.map_eq_cons_iff.mp same
        exact ⟨[c], ⟨c, small, rfl⟩, others, same, rfl⟩

theorem language_spelled (word : List Char) :
    (spelled word).language anyCase = ((word.map character).map (Node.language anyCase)).prod := by
  induction word with
  | nil => rfl
  | cons mark rest ih =>
      cases rest with
      | nil => simp [spelled]
      | cons next rest =>
          rw [spelled, Node.language_seq, ih]
          · simp
          · exact List.cons_ne_nil _ _

/-- A label is one word character, or two with label characters between them. -/
theorem label_iff {cs : List Char} : Label .wide cs ↔ ∃ c rest, isWordChar c = true ∧
    (rest = [] ∨ ∃ inner d, inner.length ≤ 61 ∧ (∀ x ∈ inner, isLabelChar x = true) ∧
      isWordChar d = true ∧ rest = inner ++ [d]) ∧ cs = c :: rest := by
  -- A hyphen is no word character, so the ends of a label decide.
  have noHyphen {c : Char} (word : isWordChar c = true) : c ≠ '-' := by
    rintro rfl
    exact (word_plain word).2 (by decide)
  constructor
  · rintro ⟨nonempty, short, chars, first, last⟩
    obtain ⟨c, rest, rfl⟩ := List.exists_cons_of_ne_nil nonempty
    obtain ⟨firstChar, others⟩ := List.forall_mem_cons.mp chars
    have word := firstChar.resolve_right fun same => first (congrArg some same)
    refine ⟨c, rest, word, ?_, rfl⟩
    rcases List.eq_nil_or_concat' rest with rfl | ⟨inner, d, rfl⟩
    · exact .inl rfl
    · obtain ⟨inside, lastChar⟩ := List.forall_mem_append.mp others
      have ending : (c :: (inner ++ [d])).getLast? = some d := by
        rw [← List.cons_append, List.getLast?_concat]
      have lastWord := (lastChar d List.mem_cons_self).resolve_right fun same =>
        last (ending.trans (congrArg some same))
      have innerChars : ∀ x ∈ inner, isLabelChar x = true := fun x member =>
        isLabelChar_iff.mpr (inside x member)
      refine .inr ⟨inner, d, ?_, innerChars, lastWord, rfl⟩
      simp only [List.length_cons, List.length_append, List.length_nil] at short
      omega
  · rintro ⟨c, rest, word, rfl | ⟨inner, d, short, inside, lastWord, rfl⟩, rfl⟩
    · refine ⟨List.cons_ne_nil _ _, by simp, List.forall_mem_singleton.mpr (.inl word), ?_, ?_⟩ <;>
        simpa using noHyphen word
    · have ending : (c :: (inner ++ [d])).getLast? = some d := by
        rw [← List.cons_append, List.getLast?_concat]
      refine ⟨List.cons_ne_nil _ _, ?_, ?_, by simpa using noHyphen word, ?_⟩
      · simp only [List.length_cons, List.length_append, List.length_nil]
        omega
      · refine List.forall_mem_cons.mpr ⟨.inl word, List.forall_mem_append.mpr ⟨?_, ?_⟩⟩
        · exact fun x member => isLabelChar_iff.mp (inside x member)
        · exact List.forall_mem_singleton.mpr (.inl lastWord)
      · rw [ending]
        simpa using noHyphen lastWord

theorem mem_labelPart {w : List Char} :
    w ∈ labelPart.language anyCase ↔ ∃ label, Label .wide label ∧ w = label ++ ['.'] := by
  simp only [labelPart, language_grouped, Node.language_seq, Language.mem_mul,
    Node.mem_set inSet_word, mem_optional, Node.mem_repeated_set inSet_label,
    mem_sign (by decide : '.' ∈ signs), label_iff, Option.mem_some_iff, forall_eq']
  constructor
  · rintro ⟨_, ⟨c, word, rfl⟩, _, ⟨rest, more, _, rfl, rfl⟩, rfl⟩
    refine ⟨c :: rest, ⟨c, rest, word, more.imp_right ?_, rfl⟩, rfl⟩
    rintro ⟨inner, ⟨_, short, inside⟩, _, ⟨d, last, rfl⟩, rfl⟩
    exact ⟨inner, d, short, inside, last, rfl⟩
  · rintro ⟨_, ⟨c, rest, word, more, rfl⟩, rfl⟩
    refine ⟨[c], ⟨c, word, rfl⟩, rest ++ ['.'], ⟨rest, more.imp_right ?_, ['.'], rfl, rfl⟩, rfl⟩
    rintro ⟨inner, d, short, inside, last, rfl⟩
    exact ⟨inner, ⟨Nat.zero_le _, short, inside⟩, [d], ⟨d, last, rfl⟩, rfl⟩

theorem mem_top {w : List Char} :
    w ∈ (Node.repeated .greedy 2 (some 6) (.set false letterItems)).language anyCase ↔
      TopLabel .wide w := by
  rw [Node.mem_repeated_set inSet_letter]
  simp only [Option.mem_some_iff, forall_eq']
  constructor
  · rintro ⟨long, short, letters⟩
    exact ⟨long, short, letters⟩
  · rintro ⟨long, short, letters⟩
    exact ⟨long, short, letters⟩

theorem mem_number {w : List Char} :
    w ∈ numberPart.language anyCase ↔ ShortNumber .wide w := by
  rw [numberPart, Node.mem_repeated_set inSet_digit]
  simp only [Option.mem_some_iff, forall_eq']
  constructor
  · rintro ⟨long, short, digits⟩
    exact ⟨List.length_pos_iff.mp long, short, digits⟩
  · rintro ⟨nonempty, short, digits⟩
    exact ⟨List.length_pos_iff.mpr nonempty, short, digits⟩

theorem mem_hostPart {w : List Char} : w ∈ hostPart.language anyCase ↔ Host .wide w := by
  have dot : '.' ∈ signs := by decide
  rw [hostPart, language_grouped, Node.language_either, Node.language_either, language_spelled,
    Language.mem_add, Language.mem_add, mem_words (by decide)]
  constructor
  · rintro (domain | word | quad)
    · rw [domainPart, Node.language_seq, Node.language_seq] at domain
      simp only [Language.mem_mul, Node.mem_repeated_some fun _ => mem_labelPart, mem_top,
        mem_optional, mem_sign dot] at domain
      obtain ⟨_, ⟨labels, some, each, rfl⟩, _, ⟨top, topped, final, dotted, rfl⟩, rfl⟩ := domain
      exact .domain some each topped dotted
    · exact .word word
    · simp only [quadPart, Node.language_seq, Language.mem_mul, mem_number, mem_sign dot] at quad
      obtain ⟨w, first, _, ⟨_, rfl, _, ⟨x, second, _, ⟨_, rfl, _, ⟨y, third, _, ⟨_, rfl, z, fourth,
        rfl⟩, rfl⟩, rfl⟩, rfl⟩, rfl⟩, rfl⟩ := quad
      exact .quad first second third fourth
  · rintro (⟨some, each, topped, dotted⟩ | word | ⟨first, second, third, fourth⟩)
    · refine .inl ?_
      rw [domainPart, Node.language_seq, Node.language_seq]
      simp only [Language.mem_mul, Node.mem_repeated_some fun _ => mem_labelPart, mem_top,
        mem_optional, mem_sign dot]
      exact ⟨_, ⟨_, some, each, rfl⟩, _, ⟨_, topped, _, dotted, rfl⟩, rfl⟩
    · exact .inr (.inl word)
    · refine .inr (.inr ?_)
      simp only [quadPart, Node.language_seq, Language.mem_mul, mem_number, mem_sign dot]
      exact ⟨_, first, _, ⟨_, rfl, _, ⟨_, second, _, ⟨_, rfl, _, ⟨_, third, _, ⟨_, rfl, _, fourth,
        rfl⟩, rfl⟩, rfl⟩, rfl⟩, rfl⟩, rfl⟩

theorem mem_portPart {w : List Char} : w ∈ portPart.language anyCase ↔ Port .wide w := by
  rw [portPart, mem_optional, language_grouped, Node.language_seq, Language.mem_mul]
  simp only [mem_sign (by decide : ':' ∈ signs), Node.mem_repeated_set inSet_digit]
  constructor
  · rintro (rfl | ⟨_, rfl, digits, ⟨long, _, each⟩, rfl⟩)
    · exact .none
    · exact .given (List.length_pos_iff.mp long) each
  · rintro (_ | ⟨some, each⟩)
    · exact .inl rfl
    · exact .inr ⟨_, rfl, _, ⟨List.length_pos_iff.mpr some, by simp, each⟩, rfl⟩

theorem mem_pathPart {w : List Char} : w ∈ pathPart.language anyCase ↔ Path w := by
  rw [pathPart, language_grouped, Node.language_either, Language.mem_add, mem_optional,
    mem_sign (by decide), Node.language_seq, Language.mem_mul]
  simp only [Node.mem_set inSet_mark, Node.mem_repeated_set inSet_visible, Bool.not_eq_true']
  constructor
  · rintro ((rfl | rfl) | ⟨_, ⟨c, marked, rfl⟩, rest, ⟨long, _, visible⟩, rfl⟩)
    · exact .none
    · exact .root
    · rw [endsPort, Bool.or_eq_true, beq_iff_eq, beq_iff_eq] at marked
      exact .given marked (List.length_pos_iff.mp long) visible
  · rintro (_ | _ | ⟨marked, some, visible⟩)
    · exact .inl (.inl rfl)
    · exact .inl (.inr rfl)
    · refine .inr ⟨_, ⟨_, ?_, rfl⟩, _, ⟨List.length_pos_iff.mpr some, by simp, visible⟩, rfl⟩
      rwa [endsPort, Bool.or_eq_true, beq_iff_eq, beq_iff_eq]

theorem mem_schemeParts {w : List Char} :
    w ∈ (schemeParts.map (Node.language anyCase)).prod ↔ Scheme .wide w := by
  rw [schemeParts, List.map_append, List.prod_append, Language.mem_mul, scheme_iff]
  simp only [mem_words (by decide : "http".toList ⊆ spelt), List.map_singleton,
    List.prod_singleton, mem_optional, mem_character (by decide : 's' ∈ spelt)]
  constructor
  · rintro ⟨four, plain, _, rfl | ⟨c, small, rfl⟩, rfl⟩
    · exact ⟨four, plain, .inl (List.append_nil four)⟩
    · exact ⟨four, plain, .inr ⟨c, small, rfl⟩⟩
  · rintro ⟨four, plain, rfl | ⟨c, small, rfl⟩⟩
    · exact ⟨w, plain, [], .inl rfl, List.append_nil w⟩
    · exact ⟨four, plain, [c], .inr ⟨c, small, rfl⟩, rfl⟩

theorem mem_separator {w : List Char} :
    w ∈ (("://".toList.map character).map (Node.language anyCase)).prod ↔ w = "://".toList := by
  have colon : ':' ∈ signs := by decide
  have slash : '/' ∈ signs := by decide
  change w ∈ (([':', '/', '/'].map character).map (Node.language anyCase)).prod ↔
    w = [':', '/', '/']
  simp only [List.map_cons, List.map_nil, List.prod_cons, List.prod_nil, mul_one, Language.mem_mul,
    mem_sign colon, mem_sign slash, exists_eq_left, List.singleton_append, eq_comm]

/-- The words of the pattern are the addresses. -/
theorem language_parts (w : List Char) :
    w ∈ (parts.map (Node.language anyCase)).prod ↔ Address .wide w := by
  rw [parts, List.map_append, List.map_append, List.prod_append, List.prod_append]
  simp only [List.map_cons, List.map_nil, List.prod_cons, List.prod_nil, mul_one, Language.mem_mul,
    mem_schemeParts, mem_separator, mem_hostPart, mem_portPart, mem_pathPart]
  constructor
  · rintro ⟨_, ⟨scheme, schemed, _, rfl, rfl⟩, _, ⟨host, hosted, _,
      ⟨port, ported, path, pathed, rfl⟩, rfl⟩, rfl⟩
    have address := Address.mk (.mk schemed hosted ported) pathed
    simpa only [List.append_assoc] using address
  · rintro ⟨⟨schemed, hosted, ported⟩, pathed⟩
    refine ⟨_, ⟨_, schemed, _, rfl, rfl⟩, _, ⟨_, hosted, _, ⟨_, ported, _, pathed, rfl⟩, rfl⟩, ?_⟩
    simp only [List.append_assoc]

/-- The pattern, matched in either case, takes just the texts that are accepted. -/
theorem matchStart_iff {pattern : Pattern} (read : Pattern.read source = .ok pattern) (s : String) :
    (pattern.matchStart? anyCase s.toList).isSome = true ↔ accepts s = true := by
  rw [read_source] at read
  obtain rfl := Except.ok.inj read
  rw [accepts_iff, Pattern.matchStart?_line rfl (by decide) rfl]
  simp only [language_parts]

end Format.Url

open Format Format.Url

/-- A check accepts a text just if it is an address in the wide reading or such an address with a
    line feed behind it, and records nothing. Addresses have no blanks. So a check agrees with the
    strict reading on all texts but those with a line feed behind an address, and those with a
    scheme, host or port that is not of ASCII. The pattern of addresses, when it is read and matched
    in either case, matches the same texts. -/
theorem Rule.check_url {rule : Rule} (url : rule.kind = .url) (s : String) :
    (accepts s = true ↔ ∃ w, Address .wide w ∧ (s.toList = w ∨ s.toList = w ++ ['\n'])) ∧
      rule.check (.str s) = (.ok (accepts s), { rule with violations := [] }) ∧
      (∀ w, Address .wide w → ∀ c ∈ w, isBlank c = false) ∧
      (((rule.check (.str s)).1 = .ok true ↔ Address .ascii s.toList) ↔
        (¬∃ w, Address .wide w ∧ s.toList = w ++ ['\n']) ∧
          ∀ front path, Front .wide front → Path path → s.toList = front ++ path →
            ∀ c ∈ front, c.toNat < 128) ∧
      ∃ pattern, Pattern.read source = .ok pattern ∧
        ((pattern.matchStart? Pattern.anyCase s.toList).isSome = true ↔
          (rule.check (.str s)).1 = .ok true) := by
  have checked : rule.check (.str s) = (.ok (accepts s), { rule with violations := [] }) := by
    rw [Rule.check, url]
    rfl
  have passed : (rule.check (.str s)).1 = .ok true ↔ accepts s = true := by
    rw [checked]
    simp
  refine ⟨accepts_iff, checked, fun w address => address.visible, ?_, _, read_source, ?_⟩
  · rw [passed, accepts_iff_strict]
  · rw [passed, matchStart_iff read_source]

theorem Rule.check_url_sample :
    ∃ w, Address .wide w ∧ ("http://a.co".toList = w ∨ "http://a.co".toList = w ++ ['\n']) :=
  have checked := @Rule.check_url (.ofKind .url) rfl "http://a.co"
  checked.1.mp (by decide)

/-- An address with a line feed behind it is accepted, although it is no address. -/
theorem Rule.check_url_broken :
    ((Rule.ofKind .url).check (.str "http://localhost\n")).1 = .ok true ∧
      ¬Address .ascii "http://localhost\n".toList :=
  ⟨rfl, fun address => address.widen.unbroken rfl⟩

end FieldRules
