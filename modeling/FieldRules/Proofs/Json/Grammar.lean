import FieldRules.Json.Reader

/-! # The grammar of JSON

The productions of RFC 8259. Readers of JSON differ in two places: in the words that stand for
values, and in the digits that they allow in a whole number. A dialect says what it has there.

A reader goes through a text from left to right, so the first whole number that is too long decides.
What can stand before it is a text of the grammar that breaks off where a value begins.
-/

namespace FieldRules.Json

open FieldRules.Number FieldRules.Text

/-- Where readers of JSON differ. -/
structure Dialect where
  /-- The words that stand for values besides `null`, `true` and `false`. -/
  words : List String
  /-- Whether a whole number may have so many digits. -/
  Fits : Nat → Prop

namespace Dialect

/-- The language of RFC 8259. -/
def standard : Dialect := { words := [], Fits := fun _ => True }

/-- The numbers that are not finite have words. -/
def extended : Dialect := { standard with words := ["NaN", "Infinity", "-Infinity"] }

/-- No whole number has more digits than a conversion takes. -/
def limited : Dialect := { extended with Fits := (· ≤ digitLimit) }

end Dialect

/-! ## Tokens -/

/-- Blanks between tokens. -/
def Gap (cs : List Char) : Prop := ∀ c ∈ cs, c ∈ [' ', '\t', '\n', '\r']

/-- A hexadecimal digit, in either case. -/
def HexDigit (c : Char) : Prop :=
  '0' ≤ c ∧ c ≤ '9' ∨ 'a' ≤ c ∧ c ≤ 'f' ∨ 'A' ≤ c ∧ c ≤ 'F'

/-- What stands between the quotes of a string. -/
inductive Chars : List Char → Prop where
  | nil : Chars []
  | plain {c : Char} {cs : List Char} (visible : 32 ≤ c.toNat) (noQuote : c ≠ '"')
      (noEscape : c ≠ '\\') (more : Chars cs) : Chars (c :: cs)
  | letter {c : Char} {cs : List Char} (known : c ∈ ['"', '\\', '/', 'b', 'f', 'n', 'r', 't'])
      (more : Chars cs) : Chars ('\\' :: c :: cs)
  | code {a b c d : Char} {cs : List Char} (first : HexDigit a) (second : HexDigit b)
      (third : HexDigit c) (fourth : HexDigit d) (more : Chars cs) :
      Chars ('\\' :: 'u' :: a :: b :: c :: d :: cs)

def quoted (cs : List Char) : List Char := '"' :: cs ++ ['"']

/-! ## Numbers -/

/-- A row of digits. -/
def Digits (cs : List Char) : Prop := cs ≠ [] ∧ ∀ c ∈ cs, isAsciiDigit c = true

/-- The minus of a number, or none. -/
def Minus (cs : List Char) : Prop := cs = [] ∨ cs = ['-']

/-- The digits before the point: only a zero alone begins with a zero. -/
inductive Whole : List Char → Prop where
  | zero : Whole ['0']
  | row {cs : List Char} (digits : Digits cs) (first : cs.head? ≠ some '0') : Whole cs

inductive Fraction : List Char → Prop where
  | mk {cs : List Char} (digits : Digits cs) : Fraction ('.' :: cs)

inductive Exponent : List Char → Prop where
  | mk {mark : Char} {sign cs : List Char} (letter : mark = 'e' ∨ mark = 'E')
      (signed : sign = [] ∨ sign = ['+'] ∨ sign = ['-']) (digits : Digits cs) :
      Exponent (mark :: (sign ++ cs))

/-- A number. The digits are counted only if it has neither a fraction nor an exponent. -/
inductive Numeral (d : Dialect) : List Char → Prop where
  | mk {sign whole fraction exponent : List Char} (minus : Minus sign) (row : Whole whole)
      (places : fraction = [] ∨ Fraction fraction) (power : exponent = [] ∨ Exponent exponent)
      (fits : fraction = [] → exponent = [] → d.Fits whole.length) :
      Numeral d (sign ++ whole ++ fraction ++ exponent)

/-! ## Values -/

/-- The name of an entry of an object, up to its colon. -/
inductive Label : List Char → Prop where
  | mk {before key after : List Char} (blank : Gap before) (chars : Chars key)
      (behind : Gap after) : Label (before ++ quoted key ++ after ++ [':'])

/-- The recursive parts of a text. -/
inductive Part where
  | value
  /-- A value between blanks. A whole text is one. -/
  | element
  /-- The elements of an array that is not empty. -/
  | elements
  /-- The entries of an object that is not empty. -/
  | members

inductive Derives (d : Dialect) : Part → List Char → Prop where
  | word {word : String} (known : word ∈ "null" :: "true" :: "false" :: d.words) :
      Derives d .value word.toList
  | number {cs : List Char} (numeral : Numeral d cs) : Derives d .value cs
  | string {cs : List Char} (chars : Chars cs) : Derives d .value (quoted cs)
  | emptyArray {cs : List Char} (blank : Gap cs) : Derives d .value ('[' :: cs ++ [']'])
  | array {cs : List Char} (inner : Derives d .elements cs) :
      Derives d .value ('[' :: cs ++ [']'])
  | emptyObject {cs : List Char} (blank : Gap cs) : Derives d .value ('\x7b' :: cs ++ ['\x7d'])
  | object {cs : List Char} (inner : Derives d .members cs) :
      Derives d .value ('\x7b' :: cs ++ ['\x7d'])
  | element {before cs after : List Char} (blank : Gap before) (value : Derives d .value cs)
      (behind : Gap after) : Derives d .element (before ++ cs ++ after)
  | lastElement {cs : List Char} (only : Derives d .element cs) : Derives d .elements cs
  | nextElement {cs rest : List Char} (first : Derives d .element cs)
      (more : Derives d .elements rest) : Derives d .elements (cs ++ ',' :: rest)
  | lastMember {label cs : List Char} (named : Label label) (only : Derives d .element cs) :
      Derives d .members (label ++ cs)
  | nextMember {label cs rest : List Char} (named : Label label) (first : Derives d .element cs)
      (more : Derives d .members rest) : Derives d .members (label ++ cs ++ ',' :: rest)

/-- What a dialect allows its extensions allow. -/
theorem Derives.mono {d e : Dialect} (words : ∀ word ∈ d.words, word ∈ e.words)
    (fits : ∀ n, d.Fits n → e.Fits n) {part : Part} {cs : List Char} (derived : Derives d part cs) :
    Derives e part cs := by
  induction derived with
  | @word word known =>
      apply Derives.word
      simp only [List.mem_cons] at known ⊢
      exact known.imp_right (·.imp_right (·.imp_right (words word)))
  | number numeral =>
      obtain ⟨minus, row, places, power, counted⟩ := numeral
      exact .number (.mk minus row places power fun noPlaces noPower =>
        fits _ (counted noPlaces noPower))
  | string chars => exact .string chars
  | emptyArray blank => exact .emptyArray blank
  | array _ inner => exact .array inner
  | emptyObject blank => exact .emptyObject blank
  | object _ inner => exact .object inner
  | element blank _ behind value => exact .element blank value behind
  | lastElement _ only => exact .lastElement only
  | nextElement _ _ first more => exact .nextElement first more
  | lastMember named _ only => exact .lastMember named only
  | nextMember named _ _ first more => exact .nextMember named first more

theorem Derives.of_standard {part : Part} {cs : List Char} (derived : Derives .standard part cs) :
    Derives .extended part cs :=
  derived.mono (d := .standard) (e := .extended)
    (fun _ known => absurd known List.not_mem_nil) fun _ => id

theorem Derives.of_limited {part : Part} {cs : List Char} (derived : Derives .limited part cs) :
    Derives .extended part cs :=
  derived.mono (d := .limited) (e := .extended) (fun _ => id) fun _ _ => trivial

/-- A word of the extended language that the standard does not know stands in a text. -/
def HasWord (cs : List Char) : Prop := ∃ word ∈ Dialect.extended.words, word.toList <:+: cs

theorem HasWord.within {cs whole : List Char} (has : HasWord cs) (part : cs <:+: whole) :
    HasWord whole := by
  obtain ⟨word, known, inside⟩ := has
  exact ⟨word, known, inside.trans part⟩

/-- Only its words set the extended language apart from the standard. -/
theorem Derives.standard_or_word {part : Part} {cs : List Char}
    (derived : Derives .extended part cs) : Derives .standard part cs ∨ HasWord cs := by
  have front (a b : List Char) : a <:+: a ++ b := (List.prefix_append a b).isInfix
  have back (a b : List Char) : b <:+: a ++ b := (List.suffix_append a b).isInfix
  have next (c : Char) (a b : List Char) : b <:+: a ++ c :: b := ⟨a ++ [c], [], by simp⟩
  induction derived with
  | @word word known =>
      rcases List.mem_append.mp (show word ∈ ["null", "true", "false"] ++ _ from known) with
        standard | added
      · exact .inl (.word standard)
      · exact .inr ⟨word, added, List.infix_refl _⟩
  | number numeral =>
      obtain ⟨minus, row, places, power, fits⟩ := numeral
      exact .inl (.number (.mk minus row places power fits))
  | string chars => exact .inl (.string chars)
  | emptyArray blank => exact .inl (.emptyArray blank)
  | array _ inner => exact inner.imp .array (·.within ⟨['['], [']'], rfl⟩)
  | emptyObject blank => exact .inl (.emptyObject blank)
  | object _ inner => exact inner.imp .object (·.within ⟨['\x7b'], ['\x7d'], rfl⟩)
  | element blank _ behind value =>
      exact value.imp (.element blank · behind) (·.within ⟨_, _, rfl⟩)
  | lastElement _ only => exact only.imp_left .lastElement
  | nextElement _ _ first more =>
      rcases first with first | has
      · exact more.imp (.nextElement first) (·.within (next _ _ _))
      · exact .inr (has.within (front _ _))
  | lastMember named _ only => exact only.imp (.lastMember named) (·.within (back _ _))
  | nextMember named _ _ first more =>
      rcases first with first | has
      · exact more.imp (.nextMember named first) (·.within (next _ _ _))
      · exact .inr (has.within ((back _ _).trans (front _ _)))

/-! ## Long numbers -/

/-- A number that ends before a text ends there: neither a digit nor a fraction nor an exponent
follows. -/
def Stops (cs : List Char) : Prop :=
  ∀ part rest, cs = part ++ rest → ¬Digits part ∧ ¬Fraction part ∧ ¬Exponent part

/-- A text begins with a whole number of so many digits, and they are more than a conversion
takes. -/
inductive BeginsLong (count : Nat) : List Char → Prop where
  | mk {sign row rest : List Char} (minus : Minus sign) (whole : Whole row)
      (counted : row.length = count) (beyond : digitLimit < count) (stops : Stops rest) :
      BeginsLong count (sign ++ row ++ rest)

/-- What stands in a part before a place where a value begins, if all numbers up to there fit. -/
inductive Opens : Part → List Char → Prop where
  | here : Opens .value []
  | inArray {cs : List Char} (inner : Opens .elements cs) : Opens .value ('[' :: cs)
  | inObject {cs : List Char} (inner : Opens .members cs) : Opens .value ('\x7b' :: cs)
  | element {before cs : List Char} (blank : Gap before) (value : Opens .value cs) :
      Opens .element (before ++ cs)
  | firstElement {cs : List Char} (first : Opens .element cs) : Opens .elements cs
  | laterElement {cs rest : List Char} (first : Derives .limited .element cs)
      (later : Opens .elements rest) : Opens .elements (cs ++ ',' :: rest)
  | firstMember {label cs : List Char} (named : Label label) (first : Opens .element cs) :
      Opens .members (label ++ cs)
  | laterMember {label cs rest : List Char} (named : Label label)
      (first : Derives .limited .element cs) (later : Opens .members rest) :
      Opens .members (label ++ cs ++ ',' :: rest)

/-- The first number of a text that does not fit has so many digits. -/
def RunsLong (count : Nat) (cs : List Char) : Prop :=
  ∃ front back, cs = front ++ back ∧ Opens .element front ∧ BeginsLong count back

end FieldRules.Json
