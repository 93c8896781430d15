import FieldRules.Calendar.DateReader

/-! # Formats that repeat a directive

A format is read for its directives before any text is looked at. What can go wrong then does not
depend on the text: a percent sign without a directive behind it, or else a directive that is there
twice, spelled out or as part of a compound one.
-/

namespace FieldRules.Calendar

namespace FormatPiece

/-- The directive of a piece, if it is one. -/
def directive? : FormatPiece → Option Directive
  | .field directive => some directive
  | _ => none

/-- A format asks for directives, in the order in which they are written. -/
inductive Asks : List Char → List Directive → Prop where
  | nil : Asks [] []
  | directive {letter : Char} {pieces : List FormatPiece} {rest : List Char}
      {directives : List Directive} (known : ofLetter? letter = some pieces)
      (later : Asks rest directives) :
      Asks ('%' :: letter :: rest) (pieces.filterMap directive? ++ directives)
  | text {c : Char} {rest : List Char} {directives : List Directive} (plain : c ≠ '%')
      (later : Asks rest directives) : Asks (c :: rest) directives

theorem directives_eq (pieces : List FormatPiece) (first : Nat) :
    (directives (pieces.zipIdx first)).map (·.1) = pieces.filterMap directive? := by
  induction pieces generalizing first with
  | nil => rfl
  | cons piece rest ih =>
      rw [List.zipIdx_cons, List.filterMap_cons, ← ih (first + 1)]
      cases piece with
      | text c => rfl
      | blanks => rfl
      | field directive => rfl

/-- Blanks that are joined ask for nothing. -/
theorem ofFormat_plain {c : Char} (plain : c ≠ '%') (rest : List Char) :
    (ofFormat (c :: rest)).map (List.filterMap directive?) =
      (ofFormat rest).map (List.filterMap directive?) := by
  rw [ofFormat.eq_def (c :: rest)]
  split
  · rename_i same
    cases same
  · rename_i same
    exact absurd (List.cons.inj same).1 plain
  · rename_i same
    exact absurd (List.cons.inj same).1 plain
  · rename_i same
    obtain ⟨rfl, rfl⟩ := List.cons.inj same
    cases ofFormat rest with
    | error reason =>
        split
        · rfl
        · rfl
    | ok pieces =>
        split
        · simp only [Except.map]
          split
          · rfl
          · rfl
        · rfl

theorem ofFormat_directive (letter : Char) (rest : List Char) :
    ofFormat ('%' :: letter :: rest) = match ofLetter? letter with
      | some pieces => (ofFormat rest).map (pieces ++ ·)
      | none => .error .badDirective := rfl

theorem plain_of {c : Char} {rest : List Char}
    (paired : ∀ letter later, c = '%' → rest = letter :: later → False)
    (alone : c = '%' → rest = [] → False) : c ≠ '%' := by
  rintro rfl
  cases rest with
  | nil => exact alone rfl rfl
  | cons letter later => exact paired letter later rfl rfl

/-- A format asks for the directives of its pieces, and for none if it has no pieces. -/
theorem asks_iff {cs : List Char} {directives : List Directive} :
    Asks cs directives ↔ (ofFormat cs).map (List.filterMap directive?) = .ok directives := by
  constructor
  · intro asks
    induction asks with
    | nil => rfl
    | @directive letter pieces rest directives known later ih =>
        rw [ofFormat_directive, known]
        cases read : ofFormat rest with
        | error reason => simp [read, Except.map] at ih
        | ok others =>
            rw [read] at ih
            obtain rfl := Except.ok.inj ih
            simp [Except.map]
    | text plain later ih => rw [ofFormat_plain plain, ih]
  · intro given
    induction cs using ofFormat.induct generalizing directives with
    | case1 =>
        obtain rfl := Except.ok.inj given
        exact .nil
    | case2 letter rest pieces known ih =>
        rw [ofFormat_directive, known] at given
        cases read : ofFormat rest with
        | error reason => simp [read, Except.map] at given
        | ok others =>
            simp only [read, Except.map, List.filterMap_append, Except.ok.injEq] at given
            subst given
            exact .directive known (ih (by rw [read]; rfl))
    | case3 letter rest unknown => simp [ofFormat_directive, unknown, Except.map] at given
    | case4 => nomatch given
    | case5 c rest paired alone _ ih | case6 c rest paired alone _ ih =>
        have plain := plain_of paired alone
        rw [ofFormat_plain plain] at given
        exact .text plain (ih given)

theorem map_error {α β : Type} {read : Except FormatFault α} {f : α → β} {reason : FormatFault} :
    read.map f = .error reason ↔ read = .error reason := by
  cases read with
  | error other => simp [Except.map]
  | ok a => simp [Except.map]

/-- All that is wrong with a format by itself is a percent sign without a directive. -/
theorem ofFormat_error {cs : List Char} {reason : FormatFault}
    (wrong : ofFormat cs = .error reason) : reason = .badDirective := by
  induction cs using ofFormat.induct with
  | case1 => nomatch wrong
  | case2 letter rest pieces known ih =>
      rw [ofFormat_directive, known] at wrong
      exact ih (map_error.mp wrong)
  | case3 letter rest unknown =>
      rw [ofFormat_directive, unknown] at wrong
      exact (Except.error.inj wrong).symm
  | case4 => exact (Except.error.inj wrong).symm
  | case5 c rest paired alone _ ih | case6 c rest paired alone _ ih =>
      have same := ofFormat_plain (plain_of paired alone) rest
      rw [wrong] at same
      exact ih (map_error.mp same.symm)

end FormatPiece

/-- What goes wrong for a directive that is repeated goes wrong for every text. -/
theorem readTime_repeated {format text : String} :
    readTime format text = .error .repeatedDirective ↔
      ∃ directives, FormatPiece.Asks format.toList directives ∧ ¬directives.Nodup := by
  simp only [FormatPiece.asks_iff, readTime]
  cases read : FormatPiece.ofFormat format.toList with
  | error reason =>
      obtain rfl := FormatPiece.ofFormat_error read
      simp [Except.map, Bind.bind, Except.bind]
  | ok pieces =>
      simp only [Except.map, Bind.bind, Except.bind, FormatPiece.directives_eq, Except.ok.injEq,
        exists_eq_left']
      by_cases distinct : (pieces.filterMap FormatPiece.directive?).Nodup
      · rw [if_pos distinct]
        refine iff_of_false ?_ fun repeated => repeated distinct
        simp only [pure, Except.pure]
        split
        · nofun
        · split
          · nofun
          · nofun
      · rw [if_neg distinct]
        exact iff_of_true rfl distinct

end FieldRules.Calendar
