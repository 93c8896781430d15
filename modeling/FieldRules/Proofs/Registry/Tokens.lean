import FieldRules.Proofs.Keyed
import FieldRules.Registry.RuleString

/-! # Reading rule strings

Each piece of a rule string names an identifier. Reading comes to tokens just if all these
identifiers are registered, and every token has the maker that its identifier has then. Nothing
but the entries of a registry plays a part in that.
-/

namespace FieldRules

open Text

variable {registry registry' : Registry} {spec : String} {position : Nat}

namespace Token

/-- The identifier that a piece of a rule string names, empty if it names none. -/
def identifierOf (piece : List Char) : String := String.ofList (strip (cut ':' (strip piece)).1)

/-- The ways that reading a piece can go. -/
inductive Course (registry : Registry) (spec : String) (position : Nat) (piece : List Char) :
    Outcome Token → Prop where
  | blank (empty : strip piece = []) :
      Course registry spec position piece (.error (.malformedRuleString spec .emptyRule position))
  | unnamed (filled : strip piece ≠ []) (empty : identifierOf piece = "") :
      Course registry spec position piece
        (.error (.malformedRuleString spec .missingIdentifier position))
  | unknown (named : identifierOf piece ≠ "")
      (absent : registry.entries.get? (identifierOf piece) = none) :
      Course registry spec position piece (.error (.unknownRule (identifierOf piece)))
  | known (named : identifierOf piece ≠ "") {factory : Factory}
      (found : registry.entries.get? (identifierOf piece) = some factory) :
      Course registry spec position piece
        (.ok ⟨identifierOf piece, argumentsOf (cut ':' (strip piece)).2, factory⟩)

theorem course (registry : Registry) (spec : String) (position : Nat) (piece : List Char) :
    Course registry spec position piece (read registry spec position piece) := by
  simp only [read]
  split
  · exact .blank ‹_›
  · rename_i body filled
    split
    · rename_i unnamed
      exact .unnamed filled (congrArg String.ofList unnamed)
    · rename_i name named
      have nonempty : identifierOf piece ≠ "" := by
        simpa [identifierOf] using named
      rw [show String.ofList (strip (cut ':' (strip piece)).1) = identifierOf piece from rfl]
      cases found : registry.entries.get? (identifierOf piece) with
      | none =>
          simp only [Registry.resolve, found, Except.map]
          exact .unknown nonempty found
      | some factory =>
          simp only [Registry.resolve, found, Except.map]
          exact .known nonempty found

theorem readAll_cons (piece : List Char) (rest : List (List Char)) :
    readAll registry spec position (piece :: rest) =
      (read registry spec position piece).bind fun token =>
        (readAll registry spec (position + 1) rest).map (token :: ·) := by
  simp only [readAll, bind, Except.bind]
  cases read registry spec position piece with
  | error fault => rfl
  | ok token => cases readAll registry spec (position + 1) rest <;> rfl

theorem read_entries (same : registry'.entries = registry.entries) (spec : String)
    (position : Nat) (piece : List Char) :
    read registry' spec position piece = read registry spec position piece := by
  simp only [read, Registry.resolve, same]

theorem readAll_entries (same : registry'.entries = registry.entries) (spec : String)
    (position : Nat) (pieces : List (List Char)) :
    readAll registry' spec position pieces = readAll registry spec position pieces := by
  induction pieces generalizing position with
  | nil => rfl
  | cons piece rest ih => rw [readAll_cons, readAll_cons, read_entries same, ih]

/-- The maker of a token that is read is the one that its identifier has. -/
theorem read_factory {piece : List Char} {token : Token}
    (given : read registry spec position piece = .ok token) :
    registry.entries.get? token.identifier = some token.factory := by
  rcases given ▸ course registry spec position piece with _ | _ | _ | ⟨_, found⟩
  exact found

theorem readAll_factory {pieces : List (List Char)} {tokens : List Token}
    (given : readAll registry spec position pieces = .ok tokens) :
    ∀ token ∈ tokens, registry.entries.get? token.identifier = some token.factory := by
  induction pieces generalizing position tokens with
  | nil =>
      obtain rfl := Except.ok.inj given
      exact fun token member => nomatch member
  | cons piece rest ih =>
      rw [readAll_cons] at given
      rcases first : read registry spec position piece with fault | token
      · simp [first, Except.bind] at given
      · rcases others : readAll registry spec (position + 1) rest with fault | later
        · simp [first, others, Except.bind, Except.map] at given
        · simp only [first, others, Except.bind, Except.map, Except.ok.injEq] at given
          subst given
          exact List.forall_mem_cons.mpr ⟨read_factory first, ih others⟩

/-- Reading faults only at a malformed piece or at an identifier that is not registered. -/
theorem readAll_fault {pieces : List (List Char)} {fault : Fault}
    (given : readAll registry spec position pieces = .error fault) :
    (∃ defect position, fault = .malformedRuleString spec defect position) ∨
      ∃ identifier, fault = .unknownRule identifier := by
  induction pieces generalizing position with
  | nil => exact nomatch given
  | cons piece rest ih =>
      rw [readAll_cons] at given
      have going := course registry spec position piece
      rcases first : read registry spec position piece with fault | token
      · rw [first] at going
        obtain rfl : fault = _ := by simpa [first, Except.bind] using given
        cases going with
        | blank | unnamed => exact .inl ⟨_, _, rfl⟩
        | unknown => exact .inr ⟨_, rfl⟩
      · rcases others : readAll registry spec (position + 1) rest with fault | later
        · obtain rfl : fault = _ := by
            simpa [first, others, Except.bind, Except.map] using given
          exact ih others
        · simp [first, others, Except.bind, Except.map] at given

theorem read_ok_iff {piece : List Char} :
    (∃ token, read registry spec position piece = .ok token) ↔
      identifierOf piece ≠ "" ∧ registry.entries.has (identifierOf piece) = true := by
  have going := course registry spec position piece
  generalize read registry spec position piece = outcome at going
  cases going with
  | blank empty =>
      have unnamed : identifierOf piece = "" := by
        rw [identifierOf, empty]
        rfl
      simp [unnamed]
  | unnamed filled empty => simp [empty]
  | unknown named absent => simp [Keyed.has, absent]
  | known named found => simp [named, Keyed.has, found]

/-- Reading succeeds just if every identifier that is named is registered. -/
theorem readAll_ok_iff {pieces : List (List Char)} :
    (∃ tokens, readAll registry spec position pieces = .ok tokens) ↔
      ∀ piece ∈ pieces,
        identifierOf piece ≠ "" ∧ registry.entries.has (identifierOf piece) = true := by
  induction pieces generalizing position with
  | nil => simp [readAll]
  | cons piece rest ih =>
      have first := @read_ok_iff registry spec position piece
      have others := @ih (position + 1)
      rw [List.forall_mem_cons, ← first, ← others, readAll_cons]
      cases read registry spec position piece with
      | error fault => simp [Except.bind]
      | ok token =>
          cases readAll registry spec (position + 1) rest <;> simp [Except.bind, Except.map]

end Token

namespace Registry

/-- The identifiers that a rule string names. -/
def identifiersOf (spec : String) : List String :=
  (splitOn '|' spec.toList).map Token.identifierOf

theorem tokenize_entries (same : registry'.entries = registry.entries) (spec : String) :
    registry'.tokenize spec = registry.tokenize spec :=
  Token.readAll_entries same spec 0 _

theorem tokenize_ok_iff :
    (∃ read, registry.tokenize spec = .ok read) ↔
      ∀ identifier ∈ identifiersOf spec,
        identifier ≠ "" ∧ registry.entries.has identifier = true := by
  rw [identifiersOf, List.forall_mem_map]
  exact Token.readAll_ok_iff

end Registry

end FieldRules
