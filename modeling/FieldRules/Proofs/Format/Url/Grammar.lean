import FieldRules.Format.Url
import FieldRules.Proofs.Text.Case

/-! # The grammar of web addresses

The grammar leaves open what counts as a letter and as a digit. In the wide reading the other cases
of ASCII letters count, and the digits of all scripts; in the strict one ASCII alone. The readings
agree on texts whose scheme, host and port are of ASCII.
-/

namespace FieldRules.Format.Url

open Text

/-- The small letters that characters stand for, and the digits of numbers. -/
structure Alphabet where
  small : Char → Char
  digit : Char → Bool

namespace Alphabet

/-- The letters and digits of ASCII. -/
def ascii : Alphabet := ⟨Char.toLower, isAsciiDigit⟩

/-- With the other cases of ASCII letters, and the digits of all scripts. -/
def wide : Alphabet := ⟨folded, isDigit⟩

def isLetter (a : Alphabet) (c : Char) : Bool := isAsciiLetter (a.small c)

def isWordChar (a : Alphabet) (c : Char) : Bool := a.isLetter c || isAsciiDigit c

end Alphabet

/-! ## Addresses -/

section
variable (a : Alphabet)

structure Label (cs : List Char) : Prop where
  nonempty : cs ≠ []
  short : cs.length ≤ 63
  chars : ∀ c ∈ cs, a.isWordChar c = true ∨ c = '-'
  first : cs.head? ≠ some '-'
  last : cs.getLast? ≠ some '-'

structure TopLabel (cs : List Char) : Prop where
  long : 2 ≤ cs.length
  short : cs.length ≤ 6
  letters : ∀ c ∈ cs, a.isLetter c = true

structure ShortNumber (cs : List Char) : Prop where
  nonempty : cs ≠ []
  short : cs.length ≤ 3
  digits : ∀ c ∈ cs, a.digit c = true

/-- A domain, in which a dot stands behind each label, the word `localhost`, or four numbers. -/
inductive Host : List Char → Prop where
  | domain {labels : List (List Char)} {top dot : List Char} (nonempty : labels ≠ [])
      (each : ∀ label ∈ labels, Label a label) (topped : TopLabel a top)
      (dotted : dot = [] ∨ dot = ['.']) : Host (labels.flatMap (· ++ ['.']) ++ (top ++ dot))
  | word {cs : List Char} (same : cs.map a.small = "localhost".toList) : Host cs
  | quad {w x y z : List Char} (first : ShortNumber a w) (second : ShortNumber a x)
      (third : ShortNumber a y) (fourth : ShortNumber a z) :
      Host (w ++ '.' :: (x ++ '.' :: (y ++ '.' :: z)))

inductive Port : List Char → Prop where
  | none : Port []
  | given {digits : List Char} (nonempty : digits ≠ []) (each : ∀ c ∈ digits, a.digit c = true) :
      Port (':' :: digits)

inductive Path : List Char → Prop where
  | none : Path []
  | root : Path ['/']
  | given {mark : Char} {rest : List Char} (marked : mark = '/' ∨ mark = '?') (nonempty : rest ≠ [])
      (visible : ∀ c ∈ rest, isBlank c = false) : Path (mark :: rest)

def Scheme (cs : List Char) : Prop :=
  cs.map a.small = "http".toList ∨ cs.map a.small = "https".toList

/-- The scheme, the host and the port of an address. -/
inductive Front : List Char → Prop where
  | mk {scheme host port : List Char} (schemed : Scheme a scheme) (hosted : Host a host)
      (ported : Port a port) : Front (scheme ++ "://".toList ++ (host ++ port))

inductive Address : List Char → Prop where
  | mk {front path : List Char} (fronted : Front a front) (pathed : Path path) :
      Address (front ++ path)

end

/-! ## Characters of an address -/

theorem folded_foreign {c : Char} (foreign : IsForeign c) : folded c = c := by
  have listed : ∀ pair ∈ foldedLetters, pair.1 ∈ strayLetters := by decide
  have unlisted : foldedLetters.lookup c = none := by
    rw [List.lookup_eq_none_iff]
    intro pair member
    rw [bne_iff_ne]
    rintro rfl
    exact foreign.nostray (listed pair member)
  rw [folded, unlisted, Option.getD_none, toLower_wide foreign.wide]

theorem isLetter_foreign {c : Char} (foreign : IsForeign c) : isLetter c = false := by
  rw [isLetter, folded_foreign foreign, (not_ascii_of_wide foreign.wide).1]

theorem isWordChar_foreign {c : Char} (foreign : IsForeign c) : isWordChar c = false := by
  rw [isWordChar, isLetter_foreign foreign, (not_ascii_of_wide foreign.wide).2]
  rfl

/-- The marks between the parts of an address. -/
def marks : List Char := ['-', '.', ':', '/', '?']

theorem word_plain : ∀ {c}, isWordChar c = true → isBlank c = false ∧ c ∉ marks := by
  refine @forall_char (fun c => isWordChar c = true → isBlank c = false ∧ c ∉ marks) (by decide)
    (by decide) fun c foreign word => ?_
  rw [isWordChar_foreign foreign] at word
  nomatch word

theorem digit_plain {c : Char} (digit : isDigit c = true) : isBlank c = false ∧ c ∉ marks := by
  refine ⟨isBlank_digit digit, ?_⟩
  have unmarked : ∀ mark ∈ marks, isDigit mark = false := by decide
  intro marked
  rw [unmarked c marked] at digit
  nomatch digit

/-- On ASCII the two alphabets agree. -/
theorem wide_ascii {c : Char} (ascii : c.toNat < 128) :
    folded c = c.toLower ∧ isDigit c = isAsciiDigit c :=
  forall_ascii (p := fun c => folded c = c.toLower ∧ isDigit c = isAsciiDigit c) (by decide) ascii

/-! ## What the parts are made of -/

section
variable {a : Alphabet} {p : Char → Prop}

theorem map_small_forall (word : ∀ c, a.isWordChar c = true → p c) {cs known : List Char}
    (letters : known.all isAsciiLetter = true) (same : cs.map a.small = known) : ∀ c ∈ cs, p c := by
  intro c inside
  have letter : isAsciiLetter (a.small c) = true := by
    refine List.all_eq_true.mp letters _ ?_
    rw [← same]
    exact List.mem_map_of_mem inside
  exact word c (by rw [Alphabet.isWordChar, Alphabet.isLetter, letter, Bool.true_or])

theorem TopLabel.forall (word : ∀ c, a.isWordChar c = true → p c) {cs : List Char}
    (topped : TopLabel a cs) : ∀ c ∈ cs, p c := by
  intro c inside
  exact word c (by rw [Alphabet.isWordChar, topped.letters c inside, Bool.true_or])

/-- A property of the characters of labels and numbers holds for all characters of a host. -/
theorem Host.forall (word : ∀ c, a.isWordChar c = true → p c) (digit : ∀ c, a.digit c = true → p c)
    (hyphen : p '-') (dot : p '.') {cs : List Char} (host : Host a cs) : ∀ c ∈ cs, p c := by
  have labelled {label : List Char} (labelled : Label a label) : ∀ c ∈ label, p c := by
    intro c inside
    rcases labelled.chars c inside with known | rfl
    · exact word c known
    · exact hyphen
  cases host with
  | domain nonempty each topped dotted =>
      rename_i labels top final
      have final : ∀ c ∈ final, p c := by
        rcases dotted with rfl | rfl
        · simp
        · simpa using dot
      refine List.forall_mem_append.mpr ⟨?_, List.forall_mem_append.mpr ⟨topped.forall word, final⟩⟩
      intro c inside
      obtain ⟨label, member, inside⟩ := List.mem_flatMap.mp inside
      rcases List.mem_append.mp inside with here | last
      · exact labelled (each label member) c here
      · rw [List.mem_singleton.mp last]
        exact dot
  | word same => exact map_small_forall word (by decide) same
  | quad first second third fourth =>
      have number {cs : List Char} (number : ShortNumber a cs) : ∀ c ∈ cs, p c := fun c inside =>
        digit c (number.digits c inside)
      simp only [List.forall_mem_append, List.forall_mem_cons]
      exact ⟨number first, dot, number second, dot, number third, dot, number fourth⟩

theorem Port.forall (digit : ∀ c, a.digit c = true → p c) (colon : p ':') {cs : List Char}
    (port : Port a cs) : ∀ c ∈ cs, p c := by
  cases port with
  | none => exact fun c inside => nomatch inside
  | given nonempty each =>
      exact List.forall_mem_cons.mpr ⟨colon, fun c inside => digit c (each c inside)⟩

theorem Scheme.forall (word : ∀ c, a.isWordChar c = true → p c) {cs : List Char}
    (scheme : Scheme a cs) : ∀ c ∈ cs, p c := by
  rcases scheme with plain | secure
  · exact map_small_forall word (by decide) plain
  · exact map_small_forall word (by decide) secure

end

/-- Whether a character may stand in a host. -/
def IsInner (c : Char) : Prop := isBlank c = false ∧ endsHost c = false

theorem isInner_of_unmarked {c : Char} (plain : isBlank c = false ∧ c ∉ marks) : IsInner c := by
  refine ⟨plain.1, ?_⟩
  have others := plain.2
  simp only [marks, List.mem_cons, not_or] at others
  simp [endsHost, others]

theorem isInner_word (c : Char) (word : Alphabet.wide.isWordChar c = true) : IsInner c :=
  isInner_of_unmarked (word_plain word)

theorem isInner_digit (c : Char) (digit : Alphabet.wide.digit c = true) : IsInner c :=
  isInner_of_unmarked (digit_plain digit)

theorem endsPort_inner {c : Char} (inner : IsInner c) : endsPort c = false := by
  have apart := inner.2
  simp only [endsHost, Bool.or_eq_false_iff] at apart
  rw [endsPort, apart.1.2, apart.2]
  rfl

theorem Host.inner {cs : List Char} (host : Host .wide cs) : ∀ c ∈ cs, IsInner c :=
  host.forall isInner_word isInner_digit ⟨rfl, rfl⟩ ⟨rfl, rfl⟩

/-! ## Two readings -/

section
variable {a b : Alphabet}

/-- Whether two alphabets say the same about the characters of a text. -/
def Agree (a b : Alphabet) (cs : List Char) : Prop :=
  ∀ c ∈ cs, a.small c = b.small c ∧ a.digit c = b.digit c

theorem Agree.symm {cs : List Char} (agree : Agree a b cs) : Agree b a cs := fun c inside =>
  ⟨(agree c inside).1.symm, (agree c inside).2.symm⟩

theorem Agree.subset {cs part : List Char} (agree : Agree a b cs) (inside : part ⊆ cs) :
    Agree a b part := fun c member => agree c (inside member)

theorem Agree.map_small {cs : List Char} (agree : Agree a b cs) :
    cs.map a.small = cs.map b.small :=
  List.map_congr_left fun c inside => (agree c inside).1

theorem Agree.isLetter {cs : List Char} (agree : Agree a b cs) :
    ∀ c ∈ cs, a.isLetter c = b.isLetter c := by
  intro c inside
  rw [Alphabet.isLetter, Alphabet.isLetter, (agree c inside).1]

theorem Agree.digits {cs : List Char} (agree : Agree a b cs)
    (digits : ∀ c ∈ cs, a.digit c = true) : ∀ c ∈ cs, b.digit c = true := by
  intro c inside
  rw [← (agree c inside).2, digits c inside]

theorem Label.reread {cs : List Char} (agree : Agree a b cs) (label : Label a cs) : Label b cs := by
  refine ⟨label.nonempty, label.short, fun c inside => ?_, label.first, label.last⟩
  have chars := label.chars c inside
  rwa [Alphabet.isWordChar, agree.isLetter c inside] at chars

theorem TopLabel.reread {cs : List Char} (agree : Agree a b cs) (topped : TopLabel a cs) :
    TopLabel b cs := by
  refine ⟨topped.long, topped.short, fun c inside => ?_⟩
  rw [← agree.isLetter c inside, topped.letters c inside]

theorem ShortNumber.reread {cs : List Char} (agree : Agree a b cs) (number : ShortNumber a cs) :
    ShortNumber b cs := ⟨number.nonempty, number.short, agree.digits number.digits⟩

theorem Host.reread {cs : List Char} (agree : Agree a b cs) (host : Host a cs) : Host b cs := by
  cases host with
  | domain nonempty each topped dotted =>
      refine .domain nonempty (fun label member => (each label member).reread ?_)
        (topped.reread ?_) dotted
      · refine agree.subset fun c inside => List.mem_append_left _ ?_
        exact List.mem_flatMap.mpr ⟨label, member, List.mem_append_left _ inside⟩
      · exact agree.subset fun c inside => by simp [inside]
  | word same => exact .word (agree.map_small ▸ same)
  | quad first second third fourth =>
      refine .quad (first.reread ?_) (second.reread ?_) (third.reread ?_) (fourth.reread ?_) <;>
        exact agree.subset fun c inside => by simp [inside]

theorem Port.reread {cs : List Char} (agree : Agree a b cs) (port : Port a cs) : Port b cs := by
  cases port with
  | none => exact .none
  | given nonempty each =>
      exact .given nonempty ((agree.subset (List.subset_cons_self _ _)).digits each)

theorem Scheme.reread {cs : List Char} (agree : Agree a b cs) (scheme : Scheme a cs) :
    Scheme b cs := by
  rwa [Scheme, agree.map_small] at scheme

theorem Front.reread {cs : List Char} (agree : Agree a b cs) (front : Front a cs) : Front b cs := by
  cases front with
  | mk schemed hosted ported =>
      refine .mk (schemed.reread ?_) (hosted.reread ?_) (ported.reread ?_) <;>
        exact agree.subset fun c inside => by simp [inside]

end

theorem Front.forall {a : Alphabet} {p : Char → Prop} (word : ∀ c, a.isWordChar c = true → p c)
    (digit : ∀ c, a.digit c = true → p c) (marked : ∀ mark ∈ marks, p mark) {cs : List Char}
    (front : Front a cs) : ∀ c ∈ cs, p c := by
  have hyphen := marked '-' (by decide)
  have dot := marked '.' (by decide)
  have colon := marked ':' (by decide)
  have separator : ∀ c ∈ "://".toList, p c := by
    have known : ∀ c ∈ "://".toList, c ∈ marks := by decide
    exact fun c inside => marked c (known c inside)
  cases front with
  | mk schemed hosted ported =>
      simp only [List.forall_mem_append]
      exact ⟨⟨schemed.forall word, separator⟩, hosted.forall word digit hyphen dot,
        ported.forall digit colon⟩

theorem front_ascii {cs : List Char} (front : Front .ascii cs) : ∀ c ∈ cs, c.toNat < 128 := by
  refine front.forall (fun c word => Nat.lt_of_not_le fun wide => ?_)
    (fun c digit => Nat.lt_of_not_le fun wide => ?_) (by decide)
  · have same : Alphabet.ascii.small c = c := toLower_wide wide
    obtain ⟨noLetter, noDigit⟩ := not_ascii_of_wide wide
    rw [Alphabet.isWordChar, Alphabet.isLetter, same, noLetter, noDigit] at word
    nomatch word
  · exact Bool.false_ne_true ((not_ascii_of_wide wide).2.symm.trans digit)

/-- The strict reading is the wide one where all characters are of ASCII. -/
theorem front_ascii_iff {cs : List Char} :
    Front .ascii cs ↔ Front .wide cs ∧ ∀ c ∈ cs, c.toNat < 128 := by
  have agree (ascii : ∀ c ∈ cs, c.toNat < 128) : Agree .wide .ascii cs := fun c inside =>
    wide_ascii (ascii c inside)
  constructor
  · intro strict
    have ascii := front_ascii strict
    exact ⟨strict.reread (agree ascii).symm, ascii⟩
  · rintro ⟨front, ascii⟩
    exact front.reread (agree ascii)

theorem Address.widen {cs : List Char} (address : Address .ascii cs) : Address .wide cs := by
  cases address with
  | mk fronted pathed => exact .mk (front_ascii_iff.mp fronted).1 pathed

theorem Path.visible {cs : List Char} (path : Path cs) : ∀ c ∈ cs, isBlank c = false := by
  cases path with
  | none => exact fun c inside => nomatch inside
  | root => decide
  | given marked _ visible =>
      refine List.forall_mem_cons.mpr ⟨?_, visible⟩
      rcases marked with rfl | rfl <;> rfl

/-- No address has a blank in it. -/
theorem Address.visible {cs : List Char} (address : Address .wide cs) :
    ∀ c ∈ cs, isBlank c = false := by
  cases address with
  | mk fronted pathed =>
      have front : ∀ c ∈ _, isBlank c = false := fronted.forall
        (fun c word => (isInner_word c word).1) (fun c digit => (isInner_digit c digit).1)
        (by decide)
      exact List.forall_mem_append.mpr ⟨front, pathed.visible⟩

theorem Address.unbroken {cs : List Char} (address : Address .wide cs) :
    cs.getLast? ≠ some '\n' := by
  intro last
  nomatch address.visible '\n' (List.mem_of_getLast? last)

end FieldRules.Format.Url
