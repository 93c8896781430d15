import FieldRules.Proofs.Json.Digits
import FieldRules.Proofs.Settings.Variables
import Mathlib.Data.List.DropRight

/-! # Texts of variables

The text of a variable is tried as a word, as a number and as a structure, and is taken as it is
where all of them fail. Only one failure is not made up for: in a text that begins like a structure,
a whole number may be too long.
-/

namespace FieldRules.Settings

open Json Number Text

/-! ## Texts that begin like a structure -/

/-- A text begins with the bracket of an array or an object. -/
def Bracketed (text : String) : Prop :=
  ∃ c rest, text.toList = c :: rest ∧ c ∈ ['\x7b', '[']

theorem bracketed_iff {text : String} :
    (beginsWith text "\x7b" || beginsWith text "[") = true ↔ Bracketed text := by
  simp only [beginsWith, Bracketed, show "\x7b".toList = ['\x7b'] from rfl,
    show "[".toList = ['['] from rfl]
  cases text.toList with
  | nil => simp
  | cons c rest => simp [@eq_comm _ c]

/-- Its bracket begins the literal that a text is tried as. -/
theorem literalChars_bracket {c : Char} (bracket : c ∈ ['\x7b', '[']) (cs : List Char) :
    ∃ rest, literalChars (c :: cs) = c :: rest := by
  simp only [List.mem_cons, List.not_mem_nil, or_false] at bracket
  have form : asciiForm c = c := by rcases bracket with rfl | rfl <;> rfl
  have solid : isAsciiBlank c = false := by rcases bracket with rfl | rfl <;> rfl
  have trimmed : literalChars (c :: cs) = (c :: cs.map asciiForm).rdropWhile isAsciiBlank := by
    rw [literalChars, trim, trimLeft, List.map_cons, form,
      List.dropWhile_cons_of_neg (by simp [solid])]
    rfl
  obtain ⟨after, whole⟩ := List.rdropWhile_prefix isAsciiBlank (c :: cs.map asciiForm)
  rw [trimmed]
  cases kept : (c :: cs.map asciiForm).rdropWhile isAsciiBlank with
  | nil =>
      have blank := List.rdropWhile_eq_nil_iff.mp kept c List.mem_cons_self
      simp [solid] at blank
  | cons first rest =>
      rw [kept] at whole
      obtain rfl := (List.cons.inj whole).1
      exact ⟨rest, rfl⟩

theorem readInteger_bracket {c : Char} (bracket : c ∈ ['\x7b', '[']) (cs : List Char) :
    readInteger (c :: cs) = .error .malformed := by
  obtain ⟨rest, literal⟩ := literalChars_bracket bracket cs
  simp only [List.mem_cons, List.not_mem_nil, or_false] at bracket
  rw [readInteger, literal]
  rcases bracket with rfl | rfl <;> rfl

theorem readDecimal?_bracket {c : Char} (bracket : c ∈ ['\x7b', '[']) (cs : List Char) :
    readDecimal? (c :: cs) = none := by
  obtain ⟨rest, literal⟩ := literalChars_bracket bracket cs
  simp only [List.mem_cons, List.not_mem_nil, or_false] at bracket
  rw [readDecimal?, literal]
  -- Underscores are taken out behind the bracket only, and no number begins with it.
  have first : withoutUnderscores none (c :: rest) =
      (withoutUnderscores (some c) rest).map (c :: ·) := by
    rcases bracket with rfl | rfl <;> rfl
  rw [first]
  cases withoutUnderscores (some c) rest with
  | none => rfl
  | some plain => rcases bracket with rfl | rfl <;> rfl

theorem lower_bracket {c : Char} (bracket : c ∈ ['\x7b', '[']) {text : String} {rest : List Char}
    (begins : text.toList = c :: rest) : (lower text).toList.head? = some c := by
  simp only [List.mem_cons, List.not_mem_nil, or_false] at bracket
  rw [lower, begins, String.toList_ofList]
  rcases bracket with rfl | rfl <;> rfl

theorem readText_bracketed {text : String} (bracketed : Bracketed text) :
    readText text = readStructure text := by
  obtain ⟨c, rest, begins, bracket⟩ := bracketed
  have other {words : List String}
      (letters : ∀ word ∈ words, word.toList.head? ∉ [some '\x7b', some '[']) :
      ¬words.contains (lower text) = true := by
    intro known
    apply letters _ (List.contains_iff_mem.mp known)
    rw [lower_bracket bracket begins]
    exact List.mem_map_of_mem bracket
  rw [readText, if_neg (other (by decide)), if_neg (other (by decide)), begins,
    readInteger_bracket bracket, readDecimal?_bracket bracket]

/-! ## What is read -/

/-- In a text that begins like a structure, the first whole number that is too long has so many
digits. -/
def Unreadable (count : Nat) (text : String) : Prop :=
  Bracketed text ∧ RunsLong count text.toList

theorem readText_decides (text : String) :
    (∃ value, readText text = .ok value) ∧ (∀ count, ¬Unreadable count text) ∨
      ∃ count, readText text = .error (.tooManyDigits count) ∧
        ∀ other, Unreadable other text ↔ other = count := by
  by_cases bracketed : Bracketed text
  · rw [readText_bracketed bracketed, readStructure, if_pos (bracketed_iff.mpr bracketed)]
    rcases read_decides text with
      ⟨⟨value, taken⟩, _, short⟩ | ⟨taken, _, short⟩ | ⟨count, taken, long⟩
    · left
      rw [taken]
      exact ⟨⟨value, rfl⟩, fun count unreadable => short count unreadable.2⟩
    · left
      rw [taken]
      exact ⟨⟨.str text, rfl⟩, fun count unreadable => short count unreadable.2⟩
    · right
      rw [taken]
      exact ⟨count, rfl, fun other => (and_iff_right bracketed).trans (long other)⟩
  · left
    have plain : PlainText text := by
      simpa [PlainText] using mt bracketed_iff.mp bracketed
    obtain ⟨value, read, _⟩ := readText_plain plain
    exact ⟨⟨value, read⟩, fun count unreadable => bracketed unreadable.1⟩

theorem readText_ok_iff {text : String} :
    (∃ value, readText text = .ok value) ↔ ∀ count, ¬Unreadable count text := by
  rcases readText_decides text with ⟨read, readable⟩ | ⟨count, failed, unreadable⟩
  · exact iff_of_true read readable
  · refine iff_of_false ?_ fun readable => readable count ((unreadable count).mpr rfl)
    rintro ⟨value, read⟩
    cases failed.symm.trans read

theorem readText_error_iff {text : String} {fault : Fault} :
    readText text = .error fault ↔
      ∃ count, fault = .tooManyDigits count ∧ Unreadable count text := by
  rcases readText_decides text with ⟨⟨value, read⟩, readable⟩ | ⟨count, failed, unreadable⟩
  · simp [read, readable]
  · simp [failed, unreadable, eq_comm]

/-- A text that denotes nothing else is taken as it is. -/
theorem readText_itself {text : String} (noWord : lower text ∉ trueWords ++ falseWords)
    (noInteger : ∀ n, readInteger text.toList ≠ .ok n) (noDecimal : readDecimal? text.toList = none)
    (noStructure : ¬Derives .extended .element text.toList)
    (readable : ∀ count, ¬Unreadable count text) : readText text = .ok (.str text) := by
  obtain ⟨noTrue, noFalse⟩ := not_or.mp (mt List.mem_append.mpr noWord)
  have numberless : readText text = readStructure text := by
    rw [readText, if_neg (mt List.contains_iff_mem.mp noTrue),
      if_neg (mt List.contains_iff_mem.mp noFalse), noDecimal]
    cases read : readInteger text.toList with
    | ok n => exact absurd read (noInteger n)
    | error => rfl
  rw [numberless, readStructure]
  split
  · rename_i bracket
    rcases read_decides text with ⟨_, derived, _⟩ | ⟨taken, _, _⟩ | ⟨count, _, long⟩
    · exact absurd derived noStructure
    · rw [taken]
    · exact absurd ⟨bracketed_iff.mp bracket, (long count).mpr rfl⟩ (readable count)
  · rfl

/-! ## Environments -/

theorem readVariables_ok_iff {environment : List (String × String)} :
    (∃ found, readVariables environment = .ok found) ↔
      ∀ entry ∈ Keyed.ofList environment, variableKey? entry.1 ≠ none →
        ∀ count, ¬Unreadable count entry.2 := by
  have onto (rows : List (String × String)) (sum : Keyed Value) :
      (∃ found, rows.foldlM addVariable sum = (.ok found : Outcome (Keyed Value))) ↔
        ∀ entry ∈ rows, variableKey? entry.1 ≠ none → ∀ count, ¬Unreadable count entry.2 := by
    induction rows generalizing sum with
    | nil => simp [pure, Except.pure]
    | cons entry rest ih =>
        rw [List.foldlM_cons, List.forall_mem_cons, addVariable]
        cases variableKey? entry.1 with
        | none => simpa [bind, Except.bind] using ih sum
        | some key =>
            rcases readText_decides entry.2 with
              ⟨⟨value, read⟩, readable⟩ | ⟨count, failed, unreadable⟩
            · simpa [read, Except.map, bind, Except.bind, readable] using ih (sum.put key value)
            · simp [failed, Except.map, bind, Except.bind, unreadable]
  exact onto _ []

/-- Nothing is in the way in an empty tree. -/
theorem assign_empty (value : Value) {path : List String} (nonempty : path ≠ []) :
    ∃ tree, assign value path (.dict []) = .ok tree := by
  obtain ⟨part, rest, rfl⟩ := List.exists_cons_of_ne_nil nonempty
  cases placed : placed? value (part :: rest) (some (.dict [])) with
  | none =>
      have blocked := placed?_eq_none.mp placed
      rw [ending_empty] at blocked
      cases blocked
  | some tree => exact ⟨tree, (assign_iff nonempty).mpr placed⟩

theorem readVariables_single (name text : String) : readVariables [(name, text)] =
    match variableKey? name with
    | some key => (readText text).map fun value => ([(key, value)] : Keyed Value)
    | none => .ok [] := by
  have alone : Keyed.ofList [(name, text)] = [(name, text)] := rfl
  rw [readVariables, alone, List.foldlM_cons, addVariable]
  cases variableKey? name with
  | none => rfl
  | some key => cases readText text <;> rfl

/-- One variable alone is loaded if its text can be read. -/
theorem ofDefaults_single {entries : List (Value × Value)} {name text : String} :
    (∃ start, ofDefaults (.dict entries) [(name, text)] = .ok start) ↔
      (variableKey? name ≠ none → ∀ count, ¬Unreadable count text) := by
  rw [ofDefaults_ok_iff, readVariables_single]
  cases variableKey? name with
  | none => exact iff_of_true ⟨[], .dict [], rfl, rfl⟩ fun known => absurd rfl known
  | some key =>
      rw [forall_prop_of_true (Option.some_ne_none key), ← readText_ok_iff]
      constructor
      · rintro ⟨found, tree, mapped, _⟩
        obtain ⟨value, taken, _⟩ := Outcome.map_ok mapped
        exact ⟨value, taken⟩
      · rintro ⟨value, taken⟩
        obtain ⟨tree, assigned⟩ := assign_empty value (pathOf_ne_nil key)
        refine ⟨[(key, value)], tree, by rw [taken]; rfl, ?_⟩
        rw [assignAll, assigned]
        rfl

/-! ## Totality -/

/-- Every text is read but those that begin like a structure and have a whole number in it that is
    too long, and these raise. What denotes nothing else is taken as it is. So whether variables can
    be read, and whether a single one can be loaded, depends on such texts alone. -/
theorem readText_total (text : String) :
    ((∃ value, readText text = .ok value) ↔ ∀ count, ¬Unreadable count text) ∧
      (∀ fault, readText text = .error fault ↔
        ∃ count, fault = .tooManyDigits count ∧ Unreadable count text) ∧
      (lower text ∉ trueWords ++ falseWords → (∀ n, readInteger text.toList ≠ .ok n) →
        readDecimal? text.toList = none → ¬Derives .extended .element text.toList →
          (∀ count, ¬Unreadable count text) → readText text = .ok (.str text)) ∧
      (∀ entries name, (∃ start, ofDefaults (.dict entries) [(name, text)] = .ok start) ↔
        (variableKey? name ≠ none → ∀ count, ¬Unreadable count text)) ∧
      ∀ environment, (∃ found, readVariables environment = .ok found) ↔
        ∀ entry ∈ Keyed.ofList environment, variableKey? entry.1 ≠ none →
          ∀ count, ¬Unreadable count entry.2 :=
  ⟨readText_ok_iff, fun _ => readText_error_iff, readText_itself,
    fun _ _ => ofDefaults_single, fun _ => readVariables_ok_iff⟩

theorem readText_total_sample :
    lower "[x" ∉ trueWords ++ falseWords ∧ (∀ n, readInteger "[x".toList ≠ .ok n) ∧
      readDecimal? "[x".toList = none ∧ ¬Derives .extended .element "[x".toList ∧
        (∀ count, ¬Unreadable count "[x") ∧ readText "[x" = .ok (.str "[x") := by
  have total := readText_total "[x"
  have bracket : '[' ∈ ['\x7b', '['] := by decide
  have noWord : lower "[x" ∉ trueWords ++ falseWords := by decide
  have noInteger : ∀ n, readInteger "[x".toList ≠ .ok n := by
    intro n read
    cases (readInteger_bracket bracket ['x']).symm.trans read
  have noDecimal : readDecimal? "[x".toList = none := readDecimal?_bracket bracket ['x']
  have malformed : Json.read "[x" = .error .malformed := rfl
  obtain ⟨foreign, short⟩ := read_malformed_iff.mp malformed
  have readable : ∀ count, ¬Unreadable count "[x" := fun count unreadable =>
    short count unreadable.2
  exact ⟨noWord, noInteger, noDecimal, foreign, readable,
    total.2.2.1 noWord noInteger noDecimal foreign readable⟩

/-- An array of one whole number, written with ones only. -/
def Sample.ones (count : Nat) : String := String.ofList ('[' :: (List.replicate count '1' ++ [']']))

theorem Sample.ones_unreadable {count : Nat} (beyond : digitLimit < count) :
    Unreadable count (Sample.ones count) := by
  have inside : Opens .element ([] ++ ['[']) :=
    .element .nil (.inArray (.firstElement (.element .nil .here)))
  have begins := BeginsLong.ones beyond (.cons (c := ']') (by decide) [])
  refine ⟨⟨'[', _, String.toList_ofList, by decide⟩, ['['], _, ?_, inside, begins⟩
  rw [Sample.ones, String.toList_ofList]
  rfl

/-- Not every text can be read, nor every variable loaded. -/
theorem readText_overlong : readText (Sample.ones 4301) = .error (.tooManyDigits 4301) ∧
    ¬∃ start, ofDefaults (.dict []) [("VALIDEX_X", Sample.ones 4301)] = .ok start := by
  have unreadable : Unreadable 4301 (Sample.ones 4301) := Sample.ones_unreadable (by decide)
  refine ⟨readText_error_iff.mpr ⟨4301, rfl, unreadable⟩, fun loads => ?_⟩
  exact ofDefaults_single.mp loads (by decide) 4301 unreadable

end FieldRules.Settings
