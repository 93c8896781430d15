import FieldRules.Proofs.Registry.Grammar
import FieldRules.Proofs.Registry.History

/-! # Writing rule strings

Identifiers with their arguments are written as a rule string, if no separator stands inside them
and no blank at a place where reading trims. Such a string is read as just what was written. And
whatever is read from any string can be written: the text that comes of it may be another one, with
fewer blanks, but it is read as the same. That holds behind every history of a registry, since a
string that was kept once goes on meaning what it spells, by identifiers that stay registered.
-/

namespace FieldRules

open Text

/-- An identifier with its arguments. -/
abbrev PlainRule := String × List String

/-- A token without its maker. -/
def Token.plain (token : Token) : PlainRule := (token.identifier, token.arguments)

theorem Token.eq_of_plain {token other : Token} (same : token.plain = other.plain)
    (maker : token.factory = other.factory) : token = other := by
  cases token
  cases other
  simp_all [plain]

/-- What a piece spells does not depend on what is registered. -/
theorem Token.Denotes.plain {entries : Keyed Factory} {piece : List Char} {token : Token}
    (denotes : Denotes entries piece token) :
    token.plain = (identifierOf piece, argumentsOf (cut ':' (strip piece)).2) := by
  obtain ⟨spelled, _, _⟩ := denotes
  obtain ⟨rfl, rfl⟩ := spells_iff.mp spelled
  rfl

namespace PlainRule

/-- A rule as text: without arguments the identifier alone, which is not the same as with one empty
    argument. -/
def text (rule : PlainRule) : String :=
  if rule.2 = [] then rule.1 else rule.1 ++ ":" ++ joinWith "," rule.2

/-- Rules as one rule string. -/
def textOf (rules : List PlainRule) : String := joinWith "|" (rules.map text)

/-- What a rule must be like to be written. -/
structure Writable (entries : Keyed Factory) (rule : PlainRule) : Prop where
  named : rule.1 ≠ ""
  registered : entries.has rule.1 = true
  whole : '|' ∉ rule.1.toList ∧ ':' ∉ rule.1.toList
  first : ∀ c ∈ rule.1.toList.head?, isBlank c = false
  last : ∀ c ∈ rule.1.toList.getLast?, isBlank c = false
  arguments : ∀ argument ∈ rule.2, '|' ∉ argument.toList ∧ ',' ∉ argument.toList
  ending : ∀ argument ∈ rule.2.getLast?, ∀ c ∈ argument.toList.getLast?, isBlank c = false

/-- Rules that can be written as a rule string: there are some, and each of them can. -/
structure AllWritable (entries : Keyed Factory) (rules : List PlainRule) : Prop where
  some : rules ≠ []
  each : ∀ rule ∈ rules, rule.Writable entries

variable {entries others : Keyed Factory} {rule : PlainRule} {rules : List PlainRule}

theorem AllWritable.mono (writable : AllWritable entries rules)
    (more : ∀ identifier, entries.has identifier = true → others.has identifier = true) :
    AllWritable others rules where
  some := writable.some
  each rule member :=
    { writable.each rule member with registered := more _ (writable.each rule member).registered }

theorem text_arguments {identifier : String} {arguments : List String} (some : arguments ≠ []) :
    (text (identifier, arguments)).toList =
      identifier.toList ++ ':' :: [','].intercalate (arguments.map String.toList) := by
  simp [text, some, joinWith_toList]

/-! ## What is written is read -/

namespace Writable

theorem uncut (writable : rule.Writable entries) : '|' ∉ rule.text.toList := by
  obtain ⟨identifier, arguments⟩ := rule
  cases arguments with
  | nil => exact writable.whole.1
  | cons first rest =>
      rw [text_arguments (List.cons_ne_nil first rest)]
      intro inside
      rcases List.mem_append.mp inside with here | behind
      · exact writable.whole.1 here
      · rcases List.mem_cons.mp behind with colon | behind
        · simp at colon
        · rcases mem_intercalate behind with comma | ⟨piece, member, here⟩
          · simp at comma
          · obtain ⟨argument, given, rfl⟩ := List.mem_map.mp member
            exact (writable.arguments argument given).1 here

theorem trimmed (writable : rule.Writable entries) : Trimmed rule.text.toList rule.text.toList := by
  obtain ⟨identifier, arguments⟩ := rule
  cases arguments with
  | nil => exact .self writable.first writable.last
  | cons first rest =>
      have front : identifier.toList ≠ [] := by simpa using writable.named
      rw [text_arguments (List.cons_ne_nil first rest)]
      constructor
      · exact ⟨[], [], by simp⟩
      · intro c found
        rw [List.head?_append_of_ne_nil _ front] at found
        exact writable.first c found
      · -- The last character is that of the last argument, or the mark in front of an empty one.
        obtain ⟨last, ending⟩ : ∃ last, last ∈ (first :: rest).getLast? :=
          Option.isSome_iff_exists.mp (by simp)
        have lastPiece : last.toList ∈ ((first :: rest).map String.toList).getLast? := by
          rw [List.getLast?_map, ending]
          rfl
        obtain ⟨before, mark, known, split⟩ := cons_intercalate ':' ',' lastPiece
        have printed : isBlank mark = false := by
          rcases known with rfl | rfl <;> rfl
        intro c found
        rw [split, ← List.append_assoc, List.getLast?_append, List.getLast?_cons] at found
        cases own : last.toList.getLast? with
        | none =>
            obtain rfl : mark = c := by simpa [own] using found
            exact printed
        | some other =>
            obtain rfl : other = c := by simpa [own] using found
            exact writable.ending last ending other own

theorem spelled (writable : rule.Writable entries) :
    Token.Spells rule.text.toList rule.1 rule.2 := by
  have named : Trimmed rule.1.toList rule.1.toList := .self writable.first writable.last
  have trimmed := writable.trimmed
  obtain ⟨identifier, arguments⟩ := rule
  cases arguments with
  | nil => exact ⟨_, _, _, trimmed, .whole writable.whole.2, named, .none⟩
  | cons first rest =>
      have some := List.cons_ne_nil first rest
      rw [text_arguments some] at trimmed ⊢
      refine ⟨_, _, _, trimmed, .apart writable.whole.2 _, named, ?_⟩
      have separated : Separated ',' ([','].intercalate ((first :: rest).map String.toList))
          ((first :: rest).map String.toList) := by
        refine ⟨by simp, ?_, rfl⟩
        intro piece member
        obtain ⟨argument, given, rfl⟩ := List.mem_map.mp member
        exact (writable.arguments argument given).2
      have listed := Token.Listed.commas separated
      simpa [Function.comp_def] using listed

end Writable

/-! ## What is read can be written -/

theorem writable_of_denotes {piece : List Char} (whole : '|' ∉ piece) {token : Token}
    (denotes : Token.Denotes entries piece token) : Writable entries token.plain := by
  obtain ⟨⟨body, before, after, trimmed, parts, named, listed⟩, filled, found⟩ := denotes
  have inBefore := named.subset
  have inBody := trimmed.subset
  have inParts := parts.subset
  constructor
  · exact filled
  · simp [Keyed.has, Token.plain, found]
  · exact ⟨fun bar => whole (inBody (inParts.1 (inBefore bar))),
      fun colon => parts.uncut (inBefore colon)⟩
  · exact named.first
  · exact named.last
  · cases listed with
    | none => exact List.forall_mem_nil _
    | commas separated =>
        intro argument member
        obtain ⟨part, inside, rfl⟩ := List.mem_map.mp member
        rw [String.toList_ofList]
        refine ⟨fun bar => ?_, separated.whole part inside⟩
        have inAfter : '|' ∈ _ := separated.joined ▸ subset_intercalate inside bar
        exact whole (inBody (inParts.2 _ rfl inAfter))
  · cases listed with
    | none => simp [Token.plain]
    | commas separated =>
        rename_i after pieces
        intro argument member c last
        rw [Token.plain, List.getLast?_map] at member
        obtain ⟨part, ending, rfl⟩ := Option.map_eq_some_iff.mp member
        rw [String.toList_ofList] at last
        -- The last argument ends the body, from which the blanks are trimmed.
        cases parts with
        | apart uncut =>
            obtain ⟨front, mark, _, split⟩ := cons_intercalate ':' ',' ending
            rw [separated.joined] at split
            apply trimmed.last
            rw [split, ← List.append_assoc, List.getLast?_append, List.getLast?_cons, last]
            rfl

theorem writable_of_all_denote {pieces : List (List Char)} (whole : ∀ piece ∈ pieces, '|' ∉ piece)
    {read : List Token} (denoted : List.Forall₂ (Token.Denotes entries) pieces read) :
    ∀ token ∈ read, Writable entries token.plain := by
  induction denoted with
  | nil => exact fun token member => nomatch member
  | cons first _ ih =>
      obtain ⟨wholeFirst, wholeRest⟩ := List.forall_mem_cons.mp whole
      exact List.forall_mem_cons.mpr ⟨writable_of_denotes wholeFirst first, ih wholeRest⟩

end PlainRule

namespace Registry

open PlainRule

variable {registry other : Registry} {spec : String} {read again : List Token}
  {rules : List PlainRule} {w : Workspace}

theorem tokenize_denotes : registry.tokenize spec = .ok read ↔
    List.Forall₂ (Token.Denotes registry.entries) (splitOn '|' spec.toList) read :=
  Token.readAll_denotes

theorem plain_tokenize (given : registry.tokenize spec = .ok read) :
    read.map Token.plain = (splitOn '|' spec.toList).map fun piece =>
      (Token.identifierOf piece, Token.argumentsOf (cut ':' (strip piece)).2) := by
  have denoted := tokenize_denotes.mp given
  clear given
  generalize splitOn '|' spec.toList = pieces at denoted ⊢
  induction denoted with
  | nil => rfl
  | cons first _ ih => simp [first.plain, ih]

theorem writable_of_tokenize (given : registry.tokenize spec = .ok read) :
    AllWritable registry.entries (read.map Token.plain) := by
  have denoted := tokenize_denotes.mp given
  have separated : Separated '|' spec.toList (splitOn '|' spec.toList) := separated_iff.mpr rfl
  constructor
  · intro empty
    have unread : read = [] := List.map_eq_nil_iff.mp empty
    rw [unread, List.forall₂_nil_right_iff] at denoted
    exact separated.some denoted
  · intro rule member
    obtain ⟨token, inside, rfl⟩ := List.mem_map.mp member
    exact writable_of_all_denote separated.whole denoted token inside

theorem tokenize_text (writable : AllWritable registry.entries rules) :
    ∃ read, registry.tokenize (textOf rules) = .ok read ∧ read.map Token.plain = rules := by
  have separated : Separated '|' (textOf rules).toList (rules.map fun rule => rule.text.toList) := by
    refine ⟨by simpa using writable.some, ?_, ?_⟩
    · intro piece member
      obtain ⟨rule, inside, rfl⟩ := List.mem_map.mp member
      exact (writable.each rule inside).uncut
    · simp [textOf, joinWith_toList, Function.comp_def]
  have each := writable.each
  simp only [tokenize_denotes, ← separated_iff.mp separated]
  clear separated writable
  induction rules with
  | nil => exact ⟨[], .nil, rfl⟩
  | cons rule rest ih =>
      obtain ⟨first, others⟩ := List.forall_mem_cons.mp each
      obtain ⟨later, denoted, same⟩ := ih others
      obtain ⟨factory, found⟩ := Option.isSome_iff_exists.mp first.registered
      have denotes := Token.Denotes.registered first.spelled first.named found
      exact ⟨_ :: later, .cons denotes denoted, by simp [same, Token.plain]⟩

/-- Tokens with registered makers are determined by what they spell. -/
theorem eq_of_plains {entries : Keyed Factory} (same : again.map Token.plain = read.map Token.plain)
    (makers : ∀ token ∈ again, entries.get? token.identifier = some token.factory)
    (others : ∀ token ∈ read, entries.get? token.identifier = some token.factory) :
    again = read := by
  induction again generalizing read with
  | nil => exact (List.map_eq_nil_iff.mp same.symm).symm
  | cons token rest ih =>
      cases read with
      | nil => nomatch same
      | cons other behind =>
          obtain ⟨plain, later⟩ := List.cons.inj same
          obtain ⟨maker, makersRest⟩ := List.forall_mem_cons.mp makers
          obtain ⟨otherMaker, othersRest⟩ := List.forall_mem_cons.mp others
          have identifier : token.identifier = other.identifier := congrArg (·.1) plain
          rw [identifier, otherMaker] at maker
          have factory := (Option.some.inj maker).symm
          rw [Token.eq_of_plain plain factory, ih later makersRest othersRest]

/-! ## Strings that were kept -/

/-- Every string that is kept was read by identifiers that are still registered. -/
def Faithful (registry : Registry) : Prop :=
  ∀ spec kept, registry.cache.get? spec = some kept → ∃ earlier : Registry,
    (∀ identifier, earlier.entries.has identifier = true →
      registry.entries.has identifier = true) ∧
    earlier.tokenize spec = .ok kept

theorem Operation.perform_faithful (faithful : w.registry.Faithful) (operation : Operation) :
    (operation.perform w).registry.Faithful := by
  intro spec kept given
  obtain ⟨prepared, grown⟩ := operation.perform_adds w
  have more : ∀ identifier, w.registry.entries.has identifier = true →
      (operation.perform w).registry.entries.has identifier = true := by
    intro identifier registered
    rw [grown]
    exact Keyed.has_putAll registered prepared
  rw [operation.perform_cache spec w] at given
  split at given
  · nomatch given
  · rcases Option.or_eq_some_iff.mp given with old | ⟨_, new⟩
    · obtain ⟨earlier, still, reading⟩ := faithful spec kept old
      exact ⟨earlier, fun identifier here => more identifier (still identifier here), reading⟩
    · obtain ⟨_, reading⟩ := Option.ite_none_right_eq_some.mp new
      refine ⟨w.registry, more, ?_⟩
      cases ran : w.registry.tokenize spec with
      | error fault => simp [ran, Except.toOption] at reading
      | ok read => simpa [ran, Except.toOption] using reading

theorem after_faithful (faithful : w.registry.Faithful) (history : List Operation) :
    (after w history).registry.Faithful := by
  induction history generalizing w with
  | nil => exact faithful
  | cons operation rest ih => exact ih (operation.perform_faithful faithful)

theorem tokens_reading (faithful : w.registry.Faithful) (given : (tokens spec w).1 = .ok read) :
    ∃ earlier : Registry,
      (∀ identifier, earlier.entries.has identifier = true →
        w.registry.entries.has identifier = true) ∧
      earlier.tokenize spec = .ok read := by
  rw [tokens_outcome] at given
  cases cached : w.registry.cache.get? spec with
  | none => exact ⟨w.registry, fun _ here => here, by simpa [cached] using given⟩
  | some kept =>
      obtain rfl : kept = read := by simpa [cached] using given
      exact faithful spec kept cached

theorem tokens_text (faithful : w.registry.Faithful)
    (writable : AllWritable w.registry.entries rules) :
    ∃ read, (tokens (textOf rules) w).1 = .ok read ∧ read.map Token.plain = rules ∧
      (w.registry.cache.get? (textOf rules) = none →
        ∀ token ∈ read, w.registry.entries.get? token.identifier = some token.factory) := by
  obtain ⟨anew, reading, same⟩ := tokenize_text writable
  cases cached : w.registry.cache.get? (textOf rules) with
  | none =>
      refine ⟨anew, ?_, same, fun _ => Token.readAll_factory reading⟩
      rw [tokens_outcome, cached]
      exact reading
  | some kept =>
      obtain ⟨earlier, _, before⟩ := faithful (textOf rules) kept cached
      refine ⟨kept, ?_, ?_, fun absent => nomatch absent⟩
      · rw [tokens_outcome, cached]
      · rw [plain_tokenize before, ← plain_tokenize reading, same]

/-- Rule strings can be written and read back. Behind any history of a registry, rules that can be
    written are read from their text as they were, with as many arguments as they had, and with the
    makers that are registered unless the text was kept before. Whatever tokens come of a string can
    be written; their text is read as the same identifiers and arguments, and as the same tokens if
    neither string was kept before. -/
theorem tokens_round_trip (fresh : w.registry.cache = []) (history : List Operation) :
    let now := after w history
    let entries := now.registry.entries
    let unkept := fun spec => now.registry.cache.get? spec = none
    (∀ rules, AllWritable entries rules →
      ∃ read, (tokens (textOf rules) now).1 = .ok read ∧ read.map Token.plain = rules ∧
        (unkept (textOf rules) →
          ∀ token ∈ read, entries.get? token.identifier = some token.factory)) ∧
    ∀ spec read, (tokens spec now).1 = .ok read →
      let rules := read.map Token.plain
      AllWritable entries rules ∧
      ∃ again, (tokens (textOf rules) (tokens spec now).2).1 = .ok again ∧
        again.map Token.plain = rules ∧
        (unkept spec → unkept (textOf rules) → again = read) := by
  intro now entries unkept
  have faithful : now.registry.Faithful := by
    refine after_faithful (fun spec kept given => ?_) history
    rw [fresh] at given
    nomatch given
  refine ⟨fun rules writable => tokens_text faithful writable, ?_⟩
  intro spec read given rules
  obtain ⟨earlier, still, reading⟩ := tokens_reading faithful given
  have writable : AllWritable entries rules := (writable_of_tokenize reading).mono still
  have faithful' : (tokens spec now).2.registry.Faithful :=
    (Operation.read spec).perform_faithful faithful
  have sameEntries := tokens_entries spec now
  have writable' : AllWritable (tokens spec now).2.registry.entries rules := by rwa [sameEntries]
  obtain ⟨again, givenAgain, same, factories⟩ := tokens_text faithful' writable'
  refine ⟨writable, again, givenAgain, same, ?_⟩
  intro unkeptSpec unkeptText
  have anew : now.registry.tokenize spec = .ok read := by
    simpa [tokens_outcome, show now.registry.cache.get? spec = none from unkeptSpec] using given
  have cached := tokens_cache spec (textOf rules) now
  rw [show now.registry.cache.get? (textOf rules) = none from unkeptText, Option.none_or] at cached
  by_cases written : spec = textOf rules
  · -- The string is its own text, and is kept by now.
    rw [tokens_outcome, cached, ← written, beq_self_eq_true, if_pos rfl, anew] at givenAgain
    exact (Except.ok.inj givenAgain).symm
  · have absent : (tokens spec now).2.registry.cache.get? (textOf rules) = none := by
      simpa [written] using cached
    have makers := factories absent
    rw [sameEntries] at makers
    exact eq_of_plains same makers (Token.readAll_factory anew)

/-- An empty argument is not the same as none, and blanks inside are kept, but not those at the ends
    of a piece. -/
theorem tokens_round_trip_sample :
    let now := after { registry := .standard } []
    let rules : List PlainRule := [("required", []), ("in", [""]), ("in", ["a:b", "", " c"])]
    AllWritable now.registry.entries rules ∧
      textOf rules = "required|in:|in:a:b,, c" ∧
      (∃ read, (tokens "required|in:|in:a:b,, c" now).1 = .ok read ∧
        read.map Token.plain = rules) ∧
      ∃ read again, (tokens " required | in :|in:a:b,, c	" now).1 = .ok read ∧
        (tokens "required|in:|in:a:b,, c" (tokens " required | in :|in:a:b,, c	" now).2).1 =
          .ok again ∧
        read.map Token.plain = rules ∧ again = read := by
  intro now rules
  have roundTrip := tokens_round_trip (w := { registry := .standard }) rfl []
  have text : textOf rules = "required|in:|in:a:b,, c" := by rfl
  obtain ⟨read, given, plain⟩ : ∃ read,
      (tokens " required | in :|in:a:b,, c	" now).1 = .ok read ∧ read.map Token.plain = rules :=
    ⟨_, rfl, rfl⟩
  obtain ⟨writable, again, givenAgain, _, same⟩ := roundTrip.2 _ read given
  rw [plain] at writable givenAgain same
  rw [text] at givenAgain same
  obtain ⟨first, givenFirst, plainFirst, _⟩ := roundTrip.1 rules writable
  rw [text] at givenFirst
  exact ⟨writable, text, ⟨first, givenFirst, plainFirst⟩, read, again, given, givenAgain, plain,
    same rfl rfl⟩

end Registry

end FieldRules
