import FieldRules.Proofs.Template.Escapes

/-! # Templates as they are written

A template is written from literal text, in which braces are doubled, and from placeholders. The
reader takes each part for what it is, whatever stands next to it; and a template in which it finds
nothing broken is written in this way.
-/

namespace FieldRules.Template

/-! ## Names and layouts -/

/-- The text of a name: brackets are closed, and outside of them nothing stands that ends the
    name. -/
inductive NameText : List Char → Prop where
  | nil : NameText []
  | plain {c : Char} {rest : List Char} (inside : c ∉ ['\x7b', '\x7d', ':', '!', '['])
      (more : NameText rest) : NameText (c :: rest)
  | bracketed {inside rest : List Char} (unclosed : ']' ∉ inside) (more : NameText rest) :
      NameText ('[' :: (inside ++ ']' :: rest))

/-- Text in which every brace that is opened is closed. -/
inductive Balanced : List Char → Prop where
  | nil : Balanced []
  | plain {c : Char} {rest : List Char} (plain : isPlain c = true) (more : Balanced rest) :
      Balanced (c :: rest)
  | nested {inside rest : List Char} (inner : Balanced inside) (more : Balanced rest) :
      Balanced ('\x7b' :: (inside ++ '\x7d' :: rest))

theorem map_eq_ok {α β : Type} {read : Except TemplateFault α} {f : α → β} {b : β} :
    read.map f = .ok b ↔ ∃ a, read = .ok a ∧ f a = b := by
  cases read <;> simp [Except.map]

/-- The characters that may stand behind a name. -/
def nameEnds : List Char := ['\x7d', ':', '!']

theorem takeName_bracketed {inside : List Char} (unclosed : ']' ∉ inside) (rest : List Char) :
    takeName true (inside ++ ']' :: rest) =
      (takeName false rest).map fun taken => (inside ++ ']' :: taken.1, taken.2) := by
  induction inside with
  | nil => rfl
  | cons c more ih =>
      obtain ⟨other, unclosed⟩ := not_or.mp (mt List.mem_cons.mpr unclosed)
      have going : (c != ']') = true := bne_iff_ne.mpr (Ne.symm other)
      simp only [List.cons_append, takeName, if_true, going, ih unclosed]
      cases takeName false rest <;> rfl

theorem takeName_text {name : List Char} (text : NameText name) {stop : Char}
    (ends : stop ∈ nameEnds) (rest : List Char) :
    takeName false (name ++ stop :: rest) = .ok (name, some (stop, rest)) := by
  induction text with
  | nil =>
      simp only [nameEnds, List.mem_cons, List.not_mem_nil, or_false] at ends
      rcases ends with rfl | rfl | rfl <;> rfl
  | @plain c more inside _ ih =>
      simp only [List.mem_cons, List.not_mem_nil, or_false, not_or] at inside
      obtain ⟨notOpen, notClose, notColon, notMark, notBracket⟩ := inside
      have outside : (c == '[') = false := beq_eq_false_iff_ne.mpr notBracket
      simp [takeName, notOpen, notClose, notColon, notMark, outside, ih, Except.map]
  | @bracketed inside more unclosed _ ih =>
      have entered (cs : List Char) : takeName false ('[' :: cs) =
          (takeName true cs).map fun taken => ('[' :: taken.1, taken.2) := rfl
      simp only [List.cons_append, List.append_assoc, entered, takeName_bracketed unclosed, ih]
      rfl

/-- What is taken for a name, from outside or from inside of brackets. -/
theorem takeName_split {cs name rest : List Char} {stop : Char} :
    (takeName false cs = .ok (name, some (stop, rest)) →
        NameText name ∧ stop ∈ nameEnds ∧ cs = name ++ stop :: rest) ∧
      (takeName true cs = .ok (name, some (stop, rest)) →
        ∃ inside more, ']' ∉ inside ∧ name = inside ++ ']' :: more ∧ NameText more ∧
          stop ∈ nameEnds ∧ cs = name ++ stop :: rest) := by
  induction cs generalizing name with
  | nil => exact ⟨nofun, nofun⟩
  | cons c behind ih =>
      -- A character that goes on with the name is taken before the rest of it.
      have going {inBrackets : Bool} (taken : ((takeName inBrackets behind).map fun taken =>
          (c :: taken.1, taken.2)) = .ok (name, some (stop, rest))) :
          ∃ later, name = c :: later ∧
            takeName inBrackets behind = .ok (later, some (stop, rest)) := by
        obtain ⟨⟨later, ending⟩, given, same⟩ := map_eq_ok.mp taken
        obtain ⟨rfl, rfl⟩ := Prod.mk.inj same
        exact ⟨later, rfl, given⟩
      constructor
      · intro taken
        simp only [takeName, Bool.false_eq_true, if_false] at taken
        split at taken
        · nomatch taken
        split at taken
        · rename_i ends
          obtain ⟨rfl, same⟩ := Prod.mk.inj (Except.ok.inj taken)
          obtain ⟨rfl, rfl⟩ := Prod.mk.inj (Option.some.inj same)
          exact ⟨.nil, by simpa [nameEnds, or_assoc] using ends, rfl⟩
        · rename_i notOpen inside
          simp only [Bool.or_eq_true, decide_eq_true_eq, not_or] at inside
          obtain ⟨later, rfl, more⟩ := going taken
          by_cases bracket : c = '['
          · rw [beq_iff_eq.mpr bracket] at more
            obtain ⟨inner, behind, unclosed, rfl, text, ends, rfl⟩ := ih.2 more
            exact ⟨bracket ▸ .bracketed unclosed text, ends, rfl⟩
          · rw [beq_eq_false_iff_ne.mpr bracket] at more
            obtain ⟨text, ends, rfl⟩ := ih.1 more
            exact ⟨.plain (by simp [notOpen, inside, bracket]) text, ends, rfl⟩
      · intro taken
        simp only [takeName, if_true] at taken
        obtain ⟨later, rfl, more⟩ := going taken
        by_cases close : c = ']'
        · rw [bne_eq_false_iff_eq.mpr close] at more
          obtain ⟨text, ends, rfl⟩ := ih.1 more
          exact ⟨[], later, List.not_mem_nil, by rw [close, List.nil_append], text, ends, rfl⟩
        · rw [bne_iff_ne.mpr close] at more
          obtain ⟨inner, behind, unclosed, rfl, text, ends, rfl⟩ := ih.2 more
          exact ⟨c :: inner, behind, by simp [unclosed, Ne.symm close], rfl, text, ends, rfl⟩

theorem takeSpec_balanced {spec : List Char} (balanced : Balanced spec) (depth : Nat)
    (rest : List Char) : takeSpec depth (spec ++ rest) =
      (takeSpec depth rest).map fun taken => (spec ++ taken.1, taken.2) := by
  induction balanced generalizing depth rest with
  | nil =>
      rw [List.nil_append]
      cases takeSpec depth rest <;> rfl
  | @plain c more plain _ ih =>
      have apart : c ≠ '\x7b' ∧ c ≠ '\x7d' := by simpa [isPlain] using plain
      simp only [List.cons_append, takeSpec, apart.1, apart.2, if_false, ih]
      cases takeSpec depth rest <;> rfl
  | @nested inside more _ _ inner outer =>
      have opened (cs : List Char) : takeSpec depth ('\x7b' :: cs) =
          (takeSpec (depth + 1) cs).map fun taken => ('\x7b' :: taken.1, taken.2) := rfl
      have closed (cs : List Char) : takeSpec (depth + 1) ('\x7d' :: cs) =
          (takeSpec depth cs).map fun taken => ('\x7d' :: taken.1, taken.2) := rfl
      simp only [List.cons_append, List.append_assoc, opened, inner, closed, outer]
      cases takeSpec depth rest with
      | error fault => rfl
      | ok taken => simp [Except.map]

/-- Text that closes as many braces as are open before it, each behind balanced text. -/
def Closes : (depth : Nat) → List Char → Prop
  | 0, cs => Balanced cs
  | depth + 1, cs => ∃ inside rest, cs = inside ++ '\x7d' :: rest ∧ Balanced inside ∧
      Closes depth rest

theorem Closes.plain {depth : Nat} {rest : List Char} (closes : Closes depth rest) {c : Char}
    (plain : isPlain c = true) : Closes depth (c :: rest) := by
  cases depth with
  | zero => exact Balanced.plain plain closes
  | succ depth =>
      obtain ⟨inside, behind, rfl, balanced, closes⟩ := closes
      exact ⟨c :: inside, behind, rfl, Balanced.plain plain balanced, closes⟩

theorem Closes.nested {depth : Nat} {inside rest : List Char} (inner : Balanced inside)
    (closes : Closes depth rest) : Closes depth ('\x7b' :: (inside ++ '\x7d' :: rest)) := by
  cases depth with
  | zero => exact Balanced.nested inner closes
  | succ depth =>
      obtain ⟨between, behind, rfl, balanced, closes⟩ := closes
      exact ⟨'\x7b' :: (inside ++ '\x7d' :: between), behind, by simp,
        Balanced.nested inner balanced, closes⟩

theorem takeSpec_split {cs spec after : List Char} {depth : Nat}
    (taken : takeSpec depth cs = .ok (spec, after)) :
    Closes depth spec ∧ cs = spec ++ '\x7d' :: after := by
  induction cs generalizing depth spec with
  | nil => nomatch taken
  | cons c rest ih =>
      have going {depth : Nat} (taken : ((takeSpec depth rest).map fun taken =>
          (c :: taken.1, taken.2)) = .ok (spec, after)) :
          ∃ later, spec = c :: later ∧ Closes depth later ∧ rest = later ++ '\x7d' :: after := by
        obtain ⟨⟨later, ending⟩, given, same⟩ := map_eq_ok.mp taken
        obtain ⟨rfl, rfl⟩ := Prod.mk.inj same
        exact ⟨later, rfl, ih given⟩
      by_cases opens : c = '\x7b'
      · subst opens
        obtain ⟨later, rfl, ⟨inside, behind, rfl, balanced, closes⟩, rfl⟩ := going taken
        exact ⟨closes.nested balanced, rfl⟩
      by_cases ends : c = '\x7d'
      · subst ends
        cases depth with
        | zero =>
            obtain ⟨rfl, rfl⟩ := Prod.mk.inj (Except.ok.inj taken)
            exact ⟨.nil, rfl⟩
        | succ depth =>
            obtain ⟨later, rfl, closes, rfl⟩ := going taken
            exact ⟨⟨[], later, rfl, .nil, closes⟩, rfl⟩
      · simp only [takeSpec, opens, ends, if_false] at taken
        obtain ⟨later, rfl, closes, rfl⟩ := going taken
        exact ⟨closes.plain (by simp [isPlain, opens, ends]), rfl⟩

/-! ## Fields -/

/-- A field as it is written, whose layout may be missing or be without text. -/
structure Placeholder where
  name : List Char
  conversion : Option Char := none
  layout : Option (List Char) := none

namespace Placeholder

/-- What stands behind the name of a field. -/
def decoration (p : Placeholder) : List Char :=
  (p.conversion.elim [] fun c => ['!', c]) ++ p.layout.elim [] fun spec => ':' :: spec

/-- The text of a field, between its braces. -/
def text (p : Placeholder) : List Char := '\x7b' :: (p.name ++ (p.decoration ++ ['\x7d']))

/-- The field that is written. -/
def field (p : Placeholder) : Field := ⟨p.name, p.conversion, p.layout.getD []⟩

structure Proper (p : Placeholder) : Prop where
  name : NameText p.name
  layout : ∀ spec ∈ p.layout, Balanced spec

theorem takeField_eq {name rest : List Char} {stop : Char} (text : NameText name)
    (ends : stop ∈ nameEnds) : takeField (name ++ stop :: rest) =
      if stop = '!' then takeConversion name rest
      else if stop = ':' then takeLayout name none rest
      else .ok (⟨name, none, []⟩, rest) := by
  simp only [takeField, takeName_text text ends]
  rfl

theorem takeLayout_balanced {spec : List Char} (balanced : Balanced spec) (name : List Char)
    (conversion : Option Char) (rest : List Char) :
    takeLayout name conversion (spec ++ '\x7d' :: rest) = .ok (⟨name, conversion, spec⟩, rest) := by
  simp [takeLayout, takeSpec_balanced balanced, takeSpec, Except.map]

theorem Proper.taken {p : Placeholder} (proper : p.Proper) (rest : List Char) :
    takeField (p.name ++ (p.decoration ++ '\x7d' :: rest)) = .ok (p.field, rest) := by
  obtain ⟨name, conversion, layout⟩ := p
  have named : NameText name := proper.name
  have balanced {spec : List Char} (same : layout = some spec) : Balanced spec :=
    proper.layout spec same
  cases conversion with
  | none =>
      cases layout with
      | none => exact takeField_eq named (by decide)
      | some spec =>
          have taken := takeLayout_balanced (balanced rfl) name none rest
          have colon : (':' : Char) ∈ nameEnds := by decide
          simpa [decoration, field, takeField_eq named colon] using taken
  | some c =>
      have mark : ('!' : Char) ∈ nameEnds := by decide
      cases layout with
      | none => simp [decoration, takeField_eq named mark, takeConversion, field]
      | some spec =>
          have taken := takeLayout_balanced (balanced rfl) name (some c) rest
          simpa [decoration, field, takeField_eq named mark, takeConversion] using taken

theorem takeLayout_split {cs name rest : List Char} {conversion : Option Char} {field : Field}
    (taken : takeLayout name conversion cs = .ok (field, rest)) :
    ∃ spec, Balanced spec ∧ field = ⟨name, conversion, spec⟩ ∧ cs = spec ++ '\x7d' :: rest := by
  obtain ⟨⟨spec, after⟩, given, same⟩ := map_eq_ok.mp taken
  obtain ⟨rfl, rfl⟩ := Prod.mk.inj same
  obtain ⟨balanced, rfl⟩ := takeSpec_split given
  exact ⟨spec, balanced, rfl, rfl⟩

/-- What is taken for a field is one that is written so. -/
theorem takeField_split {cs rest : List Char} {field : Field}
    (taken : takeField cs = .ok (field, rest)) :
    ∃ p : Placeholder, p.Proper ∧ p.field = field ∧
      cs = p.name ++ (p.decoration ++ '\x7d' :: rest) := by
  simp only [takeField, Bind.bind, Except.bind] at taken
  split at taken
  · nomatch taken
  split at taken
  · nomatch taken
  rename_i name stop behind given
  obtain ⟨text, ends, rfl⟩ := takeName_split.1 given
  split at taken
  · rename_i mark
    subst mark
    cases behind with
    | nil => nomatch taken
    | cons c more =>
        cases more with
        | nil => nomatch taken
        | cons d more =>
            simp only [takeConversion] at taken
            split at taken
            · rename_i close
              obtain ⟨rfl, rfl⟩ := Prod.mk.inj (Except.ok.inj taken)
              subst close
              exact ⟨⟨name, some c, none⟩, ⟨text, nofun⟩, rfl, rfl⟩
            · split at taken
              · rename_i colon
                subst colon
                obtain ⟨spec, balanced, rfl, rfl⟩ := takeLayout_split taken
                exact ⟨⟨name, some c, some spec⟩, ⟨text, by rintro _ ⟨⟩; exact balanced⟩, rfl, rfl⟩
              · nomatch taken
  · split at taken
    · rename_i colon
      subst colon
      obtain ⟨spec, balanced, rfl, rfl⟩ := takeLayout_split taken
      exact ⟨⟨name, none, some spec⟩, ⟨text, by rintro _ ⟨⟩; exact balanced⟩, rfl, rfl⟩
    · rename_i notMark notColon
      obtain ⟨rfl, rfl⟩ := Prod.mk.inj (Except.ok.inj taken)
      have close : stop = '\x7d' := by simpa [nameEnds, notMark, notColon] using ends
      subst close
      exact ⟨⟨name, none, none⟩, ⟨text, nofun⟩, rfl, rfl⟩

theorem Proper.taken_text {p : Placeholder} (proper : p.Proper) (rest : List Char) :
    ∃ d behind, p.text ++ rest = '\x7b' :: d :: behind ∧ d ≠ '\x7b' ∧
      takeField (d :: behind) = .ok (p.field, rest) := by
  have taken := proper.taken rest
  have whole : p.text ++ rest = '\x7b' :: (p.name ++ (p.decoration ++ '\x7d' :: rest)) := by
    simp [text]
  rw [whole]
  generalize p.name ++ (p.decoration ++ '\x7d' :: rest) = tail at taken
  cases tail with
  | nil => nomatch taken
  | cons d behind =>
      refine ⟨d, behind, rfl, ?_, taken⟩
      rintro rfl
      nomatch taken

end Placeholder

/-! ## Pieces -/

theorem takeField_shorter {cs rest : List Char} {field : Field}
    (taken : takeField cs = .ok (field, rest)) : rest.length < cs.length := by
  obtain ⟨p, _, _, rfl⟩ := Placeholder.takeField_split taken
  simp only [List.length_append, List.length_cons]
  omega

/-- It does not matter how much longer than a text the fuel is. -/
theorem piecesWith_eq {cs : List Char} {fuel fuel' : Nat} (short : cs.length < fuel)
    (short' : cs.length < fuel') : piecesWith fuel cs = piecesWith fuel' cs := by
  induction fuel generalizing cs fuel' with
  | zero => omega
  | succ fuel ih =>
      cases fuel' with
      | zero => omega
      | succ fuel' =>
          cases cs with
          | nil => rfl
          | cons c more =>
              cases more with
              | nil => rfl
              | cons d rest =>
                  have same {tail : List Char} (shorter : tail.length ≤ (d :: rest).length) :
                      piecesWith fuel tail = piecesWith fuel' tail :=
                    ih (by simp only [List.length_cons] at *; omega)
                      (by simp only [List.length_cons] at *; omega)
                  have plain := same (List.dropWhile_suffix isPlain).length_le
                  have doubled := same (Nat.le_succ rest.length)
                  simp only [piecesWith, plain, doubled]
                  split
                  · rfl
                  split
                  · rfl
                  split
                  · rfl
                  split
                  · rfl
                  · rename_i field after taken
                    rw [same (Nat.le_of_lt (takeField_shorter taken))]

theorem piecesOf_plain {c : Char} (plain : isPlain c = true) (rest : List Char) :
    piecesOf (c :: rest) =
      .literal (c :: rest.takeWhile isPlain) :: piecesOf (rest.dropWhile isPlain) := by
  have marks : c ≠ '\x7b' ∧ c ≠ '\x7d' := by simpa [isPlain] using plain
  cases rest with
  | nil => simp [piecesOf, piecesWith, marks]
  | cons d rest =>
      have shorter := (List.dropWhile_suffix (l := d :: rest) isPlain).length_le
      have same := piecesWith_eq (Nat.lt_succ_of_le shorter) (Nat.lt_succ_self _)
      rw [piecesOf, List.length_cons, piecesWith, if_pos plain, same, piecesOf]

theorem piecesOf_doubled {c : Char} (marks : isPlain c = false) (rest : List Char) :
    piecesOf (c :: c :: rest) = .literal [c] :: piecesOf rest := by
  have same : piecesWith (rest.length + 2) rest = piecesOf rest :=
    piecesWith_eq (by omega) (Nat.lt_succ_self _)
  rw [piecesOf, List.length_cons, List.length_cons, piecesWith, if_neg (Bool.not_eq_true _ ▸ marks),
    if_pos rfl, same]

theorem piecesOf_field {p : Placeholder} (proper : p.Proper) (rest : List Char) :
    piecesOf (p.text ++ rest) = .field p.field :: piecesOf rest := by
  obtain ⟨d, behind, whole, single, taken⟩ := proper.taken_text rest
  have same : piecesWith (behind.length + 2) rest = piecesOf rest :=
    piecesWith_eq (Nat.lt_succ_of_lt (takeField_shorter taken)) (Nat.lt_succ_self _)
  rw [whole, piecesOf, List.length_cons, List.length_cons, piecesWith, if_neg (by decide),
    if_neg (Ne.symm single), if_neg (by decide), taken]
  simp only [same]

/-! ## Parts -/

/-- A part of a template. -/
inductive Part where
  | literal (text : List Char)
  | placeholder (p : Placeholder)

/-- A character as it is written in a template. -/
def doubled (c : Char) : List Char := if isPlain c then [c] else [c, c]

namespace Part

/-- A part as it is written. -/
def written : Part → List Char
  | literal text => text.flatMap doubled
  | placeholder p => p.text

def Proper : Part → Prop
  | literal _ => True
  | placeholder p => p.Proper

/-- The text that a part comes to. -/
def text (supply : Supply) (inner : List Char → Outcome (List Char)) : Part → Outcome (List Char)
  | literal text => .ok text
  | placeholder p => p.field.text supply inner

/-- Parts as a template. -/
def textOf (parts : List Part) : List Char := parts.flatMap written

end Part

/-- A character of literal text is a piece, or the first of a piece that goes on behind it. -/
theorem piecesOf_character (c : Char) (cs : List Char) :
    piecesOf (doubled c ++ cs) = .literal [c] :: piecesOf cs ∨
      ∃ text rest, piecesOf cs = .literal text :: rest ∧
        piecesOf (doubled c ++ cs) = .literal (c :: text) :: rest := by
  rw [doubled]
  cases plain : isPlain c with
  | false => exact .inl (piecesOf_doubled plain cs)
  | true =>
      rw [if_pos rfl, List.singleton_append, piecesOf_plain plain]
      cases cs with
      | nil => exact .inl rfl
      | cons d rest =>
          cases next : isPlain d with
          | false =>
              left
              rw [List.takeWhile_cons_of_neg (by simp [next]),
                List.dropWhile_cons_of_neg (by simp [next])]
          | true =>
              right
              rw [List.takeWhile_cons_of_pos next, List.dropWhile_cons_of_pos next]
              exact ⟨_, _, piecesOf_plain next rest, rfl⟩

section Filling

variable (supply : Supply) (inner : List Char → Outcome (List Char))

theorem fill_character (c : Char) (cs : List Char) :
    fillPieces supply inner (piecesOf (doubled c ++ cs)) =
      (fillPieces supply inner (piecesOf cs)).map (c :: ·) := by
  rcases piecesOf_character c cs with alone | ⟨text, rest, split, joined⟩
  · rw [alone, fillPieces_cons]
    rfl
  · rw [split, joined, fillPieces_cons, fillPieces_cons]
    simp only [Piece.text, Bind.bind, Except.bind]
    cases fillPieces supply inner rest <;> rfl

theorem fill_part {part : Part} (proper : part.Proper) (cs : List Char) :
    fillPieces supply inner (piecesOf (part.written ++ cs)) =
      part.text supply inner >>= fun text =>
        (fillPieces supply inner (piecesOf cs)).map (text ++ ·) := by
  cases part with
  | placeholder p =>
      rw [Part.written, piecesOf_field proper, fillPieces_cons, Piece.text, Part.text]
  | literal text =>
      simp only [Part.written, Part.text, Bind.bind, Except.bind]
      induction text with
      | nil =>
          rw [List.flatMap_nil, List.nil_append]
          cases fillPieces supply inner (piecesOf cs) <;> rfl
      | cons c rest ih =>
          rw [List.flatMap_cons, List.append_assoc, fill_character, ih trivial]
          cases fillPieces supply inner (piecesOf cs) <;> rfl

/-- A template comes to the texts of its parts, whatever stands next to each other. -/
theorem fill_textOf {parts : List Part} (proper : ∀ part ∈ parts, part.Proper) :
    fillPieces supply inner (piecesOf (Part.textOf parts)) =
      (parts.mapM (Part.text supply inner)).map List.flatten := by
  induction parts with
  | nil => rfl
  | cons part rest ih =>
      obtain ⟨first, others⟩ := List.forall_mem_cons.mp proper
      rw [Part.textOf, List.flatMap_cons, fill_part supply inner first, ← Part.textOf, ih others,
        List.mapM_cons]
      cases part.text supply inner with
      | error fault => rfl
      | ok text => cases rest.mapM (Part.text supply inner) <;> rfl

end Filling

end FieldRules.Template
