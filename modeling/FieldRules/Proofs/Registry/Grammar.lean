import FieldRules.Proofs.Registry.Tables
import FieldRules.Proofs.Text.Pieces
import Mathlib.Data.List.Forall2

/-! # The grammar of rule strings

A rule string is pieces between bars. A piece spells an identifier, with arguments between commas
behind a colon; blanks around the piece and around the identifier do not count. A string is read
just if all its pieces spell identifiers that are registered, and else the leftmost piece that does
not is to blame, however malformed those behind it are.
-/

namespace FieldRules

open Text

namespace Token

/-! ## Pieces -/

/-- The arguments behind the colon of a piece; without a colon there are none. -/
inductive Listed : Option (List Char) → List String → Prop where
  | none : Listed none []
  | commas {after : List Char} {pieces : List (List Char)}
      (separated : Separated ',' after pieces) : Listed (some after) (pieces.map String.ofList)

/-- A piece spells an identifier, which may be empty, and arguments. -/
structure Spells (piece : List Char) (identifier : String) (arguments : List String) : Prop where
  parts : ∃ body before after, Trimmed piece body ∧ Cut ':' body before after ∧
    Trimmed before identifier.toList ∧ Listed after arguments

/-- A piece denotes a token: the identifier that it spells is registered. -/
inductive Denotes (entries : Keyed Factory) (piece : List Char) : Token → Prop where
  | registered {identifier : String} {arguments : List String}
      (spelled : Spells piece identifier arguments) (named : identifier ≠ "") {factory : Factory}
      (found : entries.get? identifier = some factory) :
      Denotes entries piece ⟨identifier, arguments, factory⟩

/-- What is wrong with the piece at a position of a rule string. -/
inductive Offends (entries : Keyed Factory) (spec : String) (position : Nat) (piece : List Char) :
    Fault → Prop where
  | blank (empty : Trimmed piece []) :
      Offends entries spec position piece (.malformedRuleString spec .emptyRule position)
  | unnamed (filled : ¬Trimmed piece []) {arguments : List String}
      (spelled : Spells piece "" arguments) :
      Offends entries spec position piece (.malformedRuleString spec .missingIdentifier position)
  | unknown {identifier : String} {arguments : List String}
      (spelled : Spells piece identifier arguments) (named : identifier ≠ "")
      (absent : entries.get? identifier = none) :
      Offends entries spec position piece (.unknownRule identifier)

variable {registry : Registry} {spec : String} {position : Nat} {piece : List Char}

theorem listed_iff {after : Option (List Char)} {arguments : List String} :
    Listed after arguments ↔ arguments = argumentsOf after := by
  constructor
  · rintro (_ | separated)
    · rfl
    · rw [separated_iff.mp separated, argumentsOf]
  · rintro rfl
    cases after with
    | none => exact .none
    | some after => exact .commas (separated_iff.mpr rfl)

/-- A piece spells one identifier and one row of arguments. -/
theorem spells_iff {identifier : String} {arguments : List String} :
    Spells piece identifier arguments ↔
      identifier = identifierOf piece ∧ arguments = argumentsOf (cut ':' (strip piece)).2 := by
  constructor
  · rintro ⟨body, before, after, trimmed, parts, named, listed⟩
    rw [trimmed_iff.mp trimmed, cut_iff.mp parts, identifierOf, trimmed_iff.mp trimmed,
      cut_iff.mp parts, trimmed_iff.mp named, String.ofList_toList]
    exact ⟨rfl, listed_iff.mp listed⟩
  · rintro ⟨rfl, rfl⟩
    refine ⟨strip piece, _, _, trimmed_strip piece, cut_cut ':' _, ?_, listed_iff.mpr rfl⟩
    rw [identifierOf, String.toList_ofList]
    exact trimmed_strip _

theorem spells (piece : List Char) :
    Spells piece (identifierOf piece) (argumentsOf (cut ':' (strip piece)).2) :=
  spells_iff.mpr ⟨rfl, rfl⟩

theorem identifierOf_blank (blank : Trimmed piece []) : identifierOf piece = "" := by
  rw [identifierOf, trimmed_iff.mp blank]
  rfl

theorem read_denotes (registry : Registry) (spec : String) (position : Nat) {token : Token} :
    read registry spec position piece = .ok token ↔ Denotes registry.entries piece token := by
  constructor
  · intro given
    rcases given ▸ course registry spec position piece with _ | _ | _ | ⟨named, found⟩
    exact .registered (spells piece) named found
  · rintro ⟨spelled, named, found⟩
    obtain ⟨rfl, rfl⟩ := spells_iff.mp spelled
    have going := course registry spec position piece
    generalize read registry spec position piece = outcome at going
    cases going with
    | blank empty => exact absurd (identifierOf_blank (trimmed_iff.mpr empty)) named
    | unnamed filled empty => exact absurd empty named
    | unknown _ absent => simp [absent] at found
    | known _ same =>
        obtain rfl := Option.some.inj (found.symm.trans same)
        rfl

theorem read_offends (registry : Registry) (spec : String) (position : Nat) {fault : Fault} :
    read registry spec position piece = .error fault ↔
      Offends registry.entries spec position piece fault := by
  constructor
  · intro given
    rcases given ▸ course registry spec position piece with
      empty | ⟨filled, empty⟩ | ⟨named, absent⟩ | _
    · exact .blank (trimmed_iff.mpr empty)
    · exact .unnamed (mt trimmed_iff.mp filled) (empty ▸ spells piece)
    · exact .unknown (spells piece) named absent
  · intro offends
    have going := course registry spec position piece
    generalize read registry spec position piece = outcome at going
    cases offends with
    | blank empty =>
        have unspelled := identifierOf_blank empty
        cases going with
        | blank => rfl
        | unnamed filled => exact absurd (trimmed_iff.mp empty) filled
        | unknown named | known named => exact absurd unspelled named
    | unnamed filled spelled =>
        have unspelled := (spells_iff.mp spelled).1.symm
        cases going with
        | blank empty => exact absurd (trimmed_iff.mpr empty) filled
        | unnamed => rfl
        | unknown named | known named => exact absurd unspelled named
    | unknown spelled named absent =>
        obtain ⟨rfl, _⟩ := spells_iff.mp spelled
        cases going with
        | blank empty => exact absurd (identifierOf_blank (trimmed_iff.mpr empty)) named
        | unnamed _ empty => exact absurd empty named
        | unknown => rfl
        | known _ found => simp [absent] at found

/-! ## Strings -/

/-- Pieces are read just if each denotes a token, one after the other. -/
theorem readAll_denotes {pieces : List (List Char)} {tokens : List Token} :
    readAll registry spec position pieces = .ok tokens ↔
      List.Forall₂ (Denotes registry.entries) pieces tokens := by
  induction pieces generalizing position tokens with
  | nil => simp [readAll, eq_comm]
  | cons piece rest ih =>
      rw [readAll_cons, List.forall₂_cons_left_iff]
      rcases first : read registry spec position piece with fault | token
      · have undenoted : ∀ token, ¬Denotes registry.entries piece token := fun token denotes => by
          have read := (read_denotes registry spec position).mpr denotes
          cases first.symm.trans read
        simp [Except.bind, undenoted]
      · have denoted : ∀ other, Denotes registry.entries piece other ↔ token = other := by
          intro other
          rw [← read_denotes registry spec position, first, Except.ok.injEq]
        simp only [Except.bind, denoted, ← @ih (position + 1)]
        rcases readAll registry spec (position + 1) rest with fault | others
        · simp [Except.map]
        · simp [Except.map, eq_comm]

/-- Pieces are refused for the first that denotes no token. -/
theorem readAll_offends {pieces : List (List Char)} {fault : Fault} :
    readAll registry spec position pieces = .error fault ↔
      ∃ before piece behind, pieces = before ++ piece :: behind ∧
        (∀ earlier ∈ before, ∃ token, Denotes registry.entries earlier token) ∧
        Offends registry.entries spec (position + before.length) piece fault := by
  induction pieces generalizing position with
  | nil => simp [readAll]
  | cons piece rest ih =>
      rw [readAll_cons]
      rcases first : read registry spec position piece with other | token
      · have offends := (read_offends _ _ _).mp first
        constructor
        · intro given
          obtain rfl := Except.error.inj given
          exact ⟨[], piece, rest, rfl, by simp, offends⟩
        · rintro ⟨_ | ⟨earlier, before⟩, offender, behind, split, denoted, offending⟩
          · obtain ⟨rfl, rfl⟩ := List.cons.inj split
            have refused := (read_offends _ _ _).mpr offending
            exact congrArg _ (Except.error.inj (first.symm.trans refused))
          · obtain ⟨rfl, _⟩ := List.cons.inj split
            obtain ⟨token, denotes⟩ := denoted _ List.mem_cons_self
            cases first.symm.trans ((read_denotes _ _ _).mpr denotes)
      · have denotes := (read_denotes _ _ _).mp first
        have later : (Except.bind (.ok token) fun token =>
              (readAll registry spec (position + 1) rest).map (token :: ·)) = .error fault ↔
            readAll registry spec (position + 1) rest = .error fault := by
          rcases readAll registry spec (position + 1) rest with other | others <;>
            simp [Except.bind, Except.map]
        rw [later, ih]
        constructor
        · rintro ⟨before, offender, behind, rfl, denoted, offending⟩
          refine ⟨piece :: before, offender, behind, rfl, ?_, ?_⟩
          · exact List.forall_mem_cons.mpr ⟨⟨token, denotes⟩, denoted⟩
          · rwa [List.length_cons, ← Nat.add_assoc, Nat.add_right_comm]
        · rintro ⟨_ | ⟨earlier, before⟩, offender, behind, split, denoted, offending⟩
          · obtain ⟨rfl, rfl⟩ := List.cons.inj split
            cases first.symm.trans ((read_offends _ _ _).mpr offending)
          · obtain ⟨rfl, rfl⟩ := List.cons.inj split
            refine ⟨before, offender, behind, rfl, (List.forall_mem_cons.mp denoted).2, ?_⟩
            rwa [List.length_cons, ← Nat.add_assoc, Nat.add_right_comm] at offending

theorem spells_registered {entries : Keyed Factory} :
    (¬Trimmed piece [] ∧ ∃ identifier arguments, Spells piece identifier arguments ∧
      identifier ≠ "" ∧ entries.has identifier = true) ↔
    identifierOf piece ≠ "" ∧ entries.has (identifierOf piece) = true := by
  constructor
  · rintro ⟨_, identifier, arguments, spelled, named, registered⟩
    obtain ⟨rfl, _⟩ := spells_iff.mp spelled
    exact ⟨named, registered⟩
  · rintro ⟨named, registered⟩
    exact ⟨mt identifierOf_blank named, _, _, spells piece, named, registered⟩

end Token

namespace Registry

/-- A rule string that is not kept is read by its grammar. It is pieces between bars, in one way.
    It comes to tokens just if each piece is filled and spells an identifier that is registered, and
    then to those that the pieces denote, in order. Otherwise it is refused for the leftmost piece
    that denotes none, with the position of that piece, whatever the pieces behind it are. -/
theorem tokens_grammar {w : Workspace} {spec : String}
    (unkept : w.registry.cache.get? spec = none) :
    let entries := w.registry.entries
    ∃ pieces, (∀ others, Separated '|' spec.toList others ↔ others = pieces) ∧
      ((∃ read, (tokens spec w).1 = .ok read) ↔ ∀ piece ∈ pieces, ¬Trimmed piece [] ∧
        ∃ identifier arguments, Token.Spells piece identifier arguments ∧ identifier ≠ "" ∧
          entries.has identifier = true) ∧
      (∀ read, (tokens spec w).1 = .ok read ↔
        List.Forall₂ (Token.Denotes entries) pieces read) ∧
      (∀ fault, (tokens spec w).1 = .error fault ↔
        ∃ before piece behind, pieces = before ++ piece :: behind ∧
          (∀ earlier ∈ before, ∃ token, Token.Denotes entries earlier token) ∧
          Token.Offends entries spec before.length piece fault) ∧
      SpecDefect.emptyRule.message = "empty rule" ∧
      SpecDefect.missingIdentifier.message = "missing rule identifier" := by
  have read : (tokens spec w).1 = Token.readAll w.registry spec 0 (splitOn '|' spec.toList) := by
    rw [tokens_outcome, unkept]
    rfl
  refine ⟨splitOn '|' spec.toList, fun others => separated_iff, ?_, ?_, ?_, rfl, rfl⟩
  · simp only [read, Token.spells_registered, Token.readAll_ok_iff]
  · intro tokens
    rw [read, Token.readAll_denotes]
  · intro fault
    simp only [read, Token.readAll_offends, Nat.zero_add]

/-- A rule string whose third piece names nothing that is registered, and whose last is empty. -/
theorem tokens_grammar_sample :
    (tokens " min : 3 |in:a:b,, c|nope:1|" { registry := .standard }).1 =
      .error (.unknownRule "nope") := by
  obtain ⟨pieces, split, _, _, refused, _⟩ :=
    @tokens_grammar { registry := .standard } " min : 3 |in:a:b,, c|nope:1|" rfl
  obtain rfl := (split [" min : 3 ".toList, "in:a:b,, c".toList, "nope:1".toList, []]).mp
    (separated_iff.mpr rfl)
  refine (refused _).mpr ⟨[" min : 3 ".toList, "in:a:b,, c".toList], "nope:1".toList, [[]], rfl,
    ?_, ?_⟩
  · have least : Token.Denotes Registry.standard.entries " min : 3 ".toList
        ⟨"min", [" 3"], .ofClass (.builtIn .min)⟩ :=
      (Token.read_denotes .standard "" 0).mp rfl
    have within : Token.Denotes Registry.standard.entries "in:a:b,, c".toList
        ⟨"in", ["a:b", "", " c"], .ofClass (.builtIn .within)⟩ :=
      (Token.read_denotes .standard "" 0).mp rfl
    exact List.forall_mem_cons.mpr ⟨⟨_, least⟩, List.forall_mem_singleton.mpr ⟨_, within⟩⟩
  · exact (Token.read_offends .standard _ _).mp rfl

end Registry

end FieldRules
