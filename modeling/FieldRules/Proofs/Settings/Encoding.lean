import FieldRules.Proofs.Settings.Variables
import FieldRules.Proofs.Text.Case

/-! # Keys written as names of variables

A clean key is written as the name of a variable in capitals, with two underscores for each dot. The
name is read from left to right, and finds its dots again because a clean segment has no two
underscores side by side and none at its end. So variables for clean keys, none of which begins
another one, set just those keys.
-/

namespace FieldRules

namespace Text

/-- Writes two underscores for each dot. -/
def pairedDots (cs : List Char) : List Char :=
  cs.flatMap fun c => if c = '.' then ['_', '_'] else [c]

/-- Underscores that stand alone, and not at the end, are left where they are. -/
theorem dotPairs_append {cs : List Char} (single : ¬['_', '_'] <:+: cs)
    (last : cs.getLast? ≠ some '_') (rest : List Char) :
    dotPairs (cs ++ rest) = cs ++ dotPairs rest := by
  induction cs with
  | nil => rfl
  | cons c cs ih =>
      have tailSingle : ¬['_', '_'] <:+: cs := fun pair =>
        single (pair.trans (List.suffix_cons c cs).isInfix)
      have tailLast : cs.getLast? ≠ some '_' := by
        intro ends
        apply last
        rw [List.getLast?_cons, ends]
        rfl
      have alone : ∀ more, c = '_' → cs ++ rest ≠ '_' :: more := by
        rintro more rfl again
        cases cs with
        | nil => exact last rfl
        | cons d cs =>
            obtain rfl : d = '_' := (List.cons.inj again).1
            exact single ⟨[], cs, rfl⟩
      rw [List.cons_append, List.cons_append, ← ih tailSingle tailLast]
      apply dotPairs.eq_2
      intro more first second
      exact alone more first second

end Text

namespace Settings

open Text

/-! ## Clean keys -/

/-- The characters of clean keys: small letters, digits and the underscore. -/
def isKeyChar (c : Char) : Bool := ('a' ≤ c && c ≤ 'z') || ('0' ≤ c && c ≤ '9') || c == '_'

/-- A segment of a clean key has no underscore at its ends and no two side by side. -/
structure CleanSegment (segment : String) : Prop where
  nonempty : segment.toList ≠ []
  chars : ∀ c ∈ segment.toList, isKeyChar c = true
  first : segment.toList.head? ≠ some '_'
  last : segment.toList.getLast? ≠ some '_'
  single : ¬['_', '_'] <:+: segment.toList

/-- A clean key is made of one or more clean segments with dots between them. -/
def CleanKey (key : String) : Prop :=
  ∃ segments, segments ≠ [] ∧ (∀ segment ∈ segments, CleanSegment segment) ∧
    key = joinWith "." segments

/-- The name of the variable that is written for a key. -/
def variableName (key : String) : String :=
  variableMark ++ String.ofList (pairedDots (upper key).toList)

/-- A character of a clean key can be had back from its capital. -/
structure Recovered (c : Char) : Prop where
  undotted : c ≠ '.'
  capital : upperChars c = [c.toUpper]
  capitalUndotted : c.toUpper ≠ '.'
  capitalAscii : c.toUpper.toNat < 128
  back : lowerChar c.toUpper = c

theorem isKeyChar_recovered {c : Char} (plain : isKeyChar c = true) : Recovered c := by
  have ascii : c.toNat < 128 := by
    have low {bound : Char} (small : bound.toNat < 128) (below : c ≤ bound) : c.toNat < 128 :=
      Nat.lt_of_le_of_lt (UInt32.le_iff_toNat_le.mp below) small
    simp only [isKeyChar, Bool.or_eq_true, Bool.and_eq_true, decide_eq_true_eq, beq_iff_eq] at plain
    rcases plain with (⟨-, below⟩ | ⟨-, below⟩) | rfl
    · exact low (by decide) below
    · exact low (by decide) below
    · decide
  have known : isKeyChar c = true → c ≠ '.' ∧ upperChars c = [c.toUpper] ∧ c.toUpper ≠ '.' ∧
      c.toUpper.toNat < 128 ∧ lowerChar c.toUpper = c := by
    revert ascii
    apply forall_ascii
    decide +kernel
  obtain ⟨undotted, capital, capitalUndotted, capitalAscii, back⟩ := known plain
  exact ⟨undotted, capital, capitalUndotted, capitalAscii, back⟩

theorem CleanSegment.undotted {segment : String} (clean : CleanSegment segment) :
    '.' ∉ segment.toList :=
  fun inside => (isKeyChar_recovered (clean.chars '.' inside)).undotted rfl

/-! ## Reading a name -/

theorem pairedDots_undotted {cs : List Char} (undotted : '.' ∉ cs) : pairedDots cs = cs := by
  induction cs with
  | nil => rfl
  | cons c cs ih =>
      obtain ⟨here, later⟩ := not_or.mp (mt List.mem_cons.mpr undotted)
      rw [pairedDots, List.flatMap_cons, if_neg (Ne.symm here)]
      exact congrArg (c :: ·) (ih later)

/-- In capitals and back again, dots and clean characters are what they were. -/
theorem lowered_pairedDots {cs : List Char} (plain : ∀ c ∈ cs, c = '.' ∨ Recovered c) :
    lowerAfter [] (pairedDots (cs.flatMap upperChars)) = pairedDots cs := by
  have capitals : pairedDots (cs.flatMap upperChars) =
      cs.flatMap fun c => if c = '.' then ['_', '_'] else [c.toUpper] := by
    rw [pairedDots, List.flatMap_assoc]
    refine List.flatMap_congr fun c member => ?_
    rcases plain c member with rfl | recovered
    · rfl
    · rw [recovered.capital, List.flatMap_singleton, if_neg recovered.capitalUndotted,
        if_neg recovered.undotted]
  rw [capitals, lowerAfter_ascii, List.map_flatMap, pairedDots]
  · refine List.flatMap_congr fun c member => ?_
    rcases plain c member with rfl | recovered
    · rfl
    · rw [if_neg recovered.undotted, if_neg recovered.undotted, List.map_singleton, recovered.back]
  · intro d inside
    obtain ⟨c, member, here⟩ := List.mem_flatMap.mp inside
    rcases plain c member with rfl | recovered
    · rw [if_pos rfl] at here
      obtain rfl : d = '_' := by simpa using here
      decide
    · rw [if_neg recovered.undotted, List.mem_singleton] at here
      exact here ▸ recovered.capitalAscii

/-- Two underscores are found again where they were written for a dot, and nowhere else. -/
theorem dotPairs_pairedDots {segments : List String}
    (clean : ∀ segment ∈ segments, CleanSegment segment) :
    dotPairs (pairedDots (joinWith "." segments).toList) = (joinWith "." segments).toList := by
  rw [joinWith_toList]
  induction segments with
  | nil => rfl
  | cons first rest ih =>
      obtain ⟨here, others⟩ := List.forall_mem_cons.mp clean
      have kept (more : List Char) :
          dotPairs (first.toList ++ more) = first.toList ++ dotPairs more :=
        dotPairs_append here.single here.last more
      cases rest with
      | nil =>
          have alone := kept []
          rw [List.append_nil] at alone
          simpa [pairedDots_undotted here.undotted, dotPairs] using alone
      | cons second rest =>
          have later := ih others
          rw [List.map_cons, List.map_cons, List.intercalate_cons_cons]
          rw [List.map_cons] at later
          have split : pairedDots (first.toList ++ ".".toList ++
              ".".toList.intercalate (second.toList :: rest.map String.toList)) =
              first.toList ++ '_' :: '_' :: pairedDots
                (".".toList.intercalate (second.toList :: rest.map String.toList)) := by
            rw [pairedDots, List.append_assoc, List.flatMap_append]
            exact congrArg (· ++ _) (pairedDots_undotted here.undotted)
          rw [split, kept, dotPairs, later, List.append_assoc]
          rfl

/-- The name that is written for a clean key is read as that key. -/
theorem variableKey?_variableName {key : String} (clean : CleanKey key) :
    variableKey? (variableName key) = some key := by
  obtain ⟨segments, -, segmentsClean, rfl⟩ := clean
  have plain : ∀ c ∈ (joinWith "." segments).toList, c = '.' ∨ Recovered c := by
    intro c inside
    rw [joinWith_toList] at inside
    rcases mem_intercalate inside with dot | ⟨piece, member, here⟩
    · exact .inl dot
    · obtain ⟨segment, known, rfl⟩ := List.mem_map.mp member
      exact .inr (isKeyChar_recovered ((segmentsClean segment known).chars c here))
  have marked : beginsWith (variableName (joinWith "." segments)) variableMark = true := by
    rw [beginsWith, variableName, String.toList_append, List.isPrefixOf_iff_prefix]
    exact List.prefix_append _ _
  have rest : (variableName (joinWith "." segments)).toList.drop variableMark.length =
      pairedDots ((joinWith "." segments).toList.flatMap upperChars) := by
    rw [variableName, String.toList_append, ← String.length_toList, List.drop_left, upper,
      String.toList_ofList, String.toList_ofList]
  rw [variableKey?, if_pos marked]
  simp only [rest, lower, String.toList_ofList, lowered_pairedDots plain,
    dotPairs_pairedDots segmentsClean, String.ofList_toList]

theorem variableName_inj {key other : String} (clean : CleanKey key) (otherClean : CleanKey other)
    (same : variableName key = variableName other) : key = other := by
  have read := variableKey?_variableName clean
  rw [same, variableKey?_variableName otherClean] at read
  exact (Option.some.inj read).symm

/-! ## Only looking up -/

/-- Whether an operation changes no source, whatever it comes to. -/
def Operation.LooksOnly : Operation → Prop
  | addSource _ | loadEnvironment _ | put .. => False
  | look .. | wholeNumber .. | truth .. | has _ | item _ | part _ | all => True

theorem foldl_onSources_looks {history : List Operation}
    (looks : ∀ operation ∈ history, operation.LooksOnly) (sources : List Source) :
    history.foldl Operation.onSources sources = sources := by
  induction history with
  | nil => rfl
  | cons operation rest ih =>
      obtain ⟨first, others⟩ := List.forall_mem_cons.mp looks
      have same : operation.onSources sources = sources := by
        cases operation with
        | addSource | loadEnvironment | put => exact first.elim
        | _ => rfl
      rw [List.foldl_cons, same, ih others]

/-- What was looked up before plays no part. -/
theorem Sound.value_after_looks {settings : Settings} (sound : settings.Sound)
    {history : List Operation} (looks : ∀ operation ∈ history, operation.LooksOnly) (key : String)
    (default : Value) :
    (value key default (after settings history)).1 = (value key default settings).1 := by
  obtain ⟨soundAfter, sources⟩ := after_sound sound history
  rw [value_eq, value_eq, (soundAfter.found key).1, (sound.found key).1, sources,
    foldl_onSources_looks looks]

/-! ## Variables for clean keys -/

/-- What is set at the keys of some rows leads nowhere else, but above them. -/
theorem ending_unset {rows : List (String × Value)} {tree : Value}
    (leaves : ∀ row ∈ rows, ∀ below, row.2 ≠ .dict below)
    (assigned : assignAll (.dict []) rows = .ok tree) {path : List String} (some : path ≠ [])
    (apart : ∀ row ∈ rows, ¬path <+: pathOf row.1) :
    (ending path (.some tree)).visible = .absent := by
  rw [ending_assignAll assigned]
  have start : (ending path (.some (.dict []))).visible = .absent := by
    obtain ⟨part, rest, rfl⟩ := List.exists_cons_of_ne_nil some
    rw [ending_empty]
    rfl
  generalize ending path (.some (.dict [])) = before at start
  clear assigned
  induction rows generalizing before with
  | nil => exact start
  | cons row rest ih =>
      obtain ⟨leaf, otherLeaves⟩ := List.forall_mem_cons.mp leaves
      obtain ⟨notAbove, others⟩ := List.forall_mem_cons.mp apart
      rw [List.foldl_cons]
      apply ih otherLeaves others
      rw [endingAfter, if_neg notAbove]
      split
      · rename_i below
        obtain ⟨more, rfl⟩ := below
        rw [List.drop_left]
        cases more with
        | nil => exact absurd (by simp) notAbove
        | cons part more =>
            cases value : row.2 with
            | dict below => exact absurd value (leaf below)
            | _ => rfl
      · exact start

/-- Clean keys, none of which begins another one, with texts that denote leaves. -/
structure Encodable (rows : List (String × String)) : Prop where
  distinct : (Keyed.names rows).Nodup
  clean : ∀ row ∈ rows, CleanKey row.1
  apart : ∀ row ∈ rows, ∀ other ∈ rows, pathOf row.1 <+: pathOf other.1 → row = other
  leaves : ∀ row ∈ rows, ∃ value, readText row.2 = .ok value ∧ ∀ below, value ≠ .dict below

/-- The environment that is written for keys and texts. -/
def encoded (rows : List (String × String)) : List (String × String) :=
  rows.map fun row => (variableName row.1, row.2)

namespace Encodable

variable {rows : List (String × String)}

theorem denotes (encodable : Encodable rows) {row : String × String} (member : row ∈ rows) :
    readText row.2 = .ok (denoted row.2) ∧ ∀ below, denoted row.2 ≠ .dict below := by
  obtain ⟨value, read, leaf⟩ := encodable.leaves row member
  simpa [denoted, read, Except.toOption] using leaf

theorem legible (encodable : Encodable rows) : Legible (encoded rows) where
  distinct := by
    rw [Keyed.names, encoded, List.map_map]
    refine List.Nodup.map_on (fun row member other otherMember same => ?_) encodable.distinct.of_map
    have key : row.1 = other.1 :=
      variableName_inj (encodable.clean row member) (encodable.clean other otherMember) same
    exact encodable.apart row member other otherMember (key ▸ List.prefix_refl _)
  reads := by
    simp only [encoded, List.forall_mem_map]
    exact fun row member => (encodable.denotes member).1
  leaves := by
    simp only [encoded, List.forall_mem_map]
    exact fun row member => (encodable.denotes member).2

theorem settingsAmong (encodable : Encodable rows) :
    Keyed.ofList (settingsAmong (encoded rows)) = rows.map fun row => (row.1, denoted row.2) := by
  have settings : Settings.settingsAmong (encoded rows) =
      rows.map fun row => (row.1, denoted row.2) := by
    have clean := encodable.clean
    clear encodable
    induction rows with
    | nil => rfl
    | cons row rest ih =>
        obtain ⟨first, others⟩ := List.forall_mem_cons.mp clean
        rw [encoded, List.map_cons, Settings.settingsAmong, List.filterMap_cons,
          variableKey?_variableName first]
        exact congrArg (_ :: ·) (ih others)
  rw [settings]
  apply Keyed.ofList_of_nodup
  rw [Keyed.names, List.map_map]
  exact encodable.distinct

theorem apart_settings (encodable : Encodable rows) {row other : String × String}
    (member : row ∈ rows) (otherMember : other ∈ rows) :
    ¬GoesOn (pathOf row.1) (pathOf other.1) := by
  intro on
  obtain rfl := encodable.apart row member other otherMember (prefix_iff.mpr (.inr on))
  exact goesOn_irrefl _ on

theorem compatible (encodable : Encodable rows) :
    Compatible (rows.map fun row => (row.1, denoted row.2)) where
  apart := by
    simp only [List.forall_mem_map]
    exact fun row member other otherMember => encodable.apart_settings member otherMember
  agree := by
    simp only [List.forall_mem_map]
    intro row member other otherMember same
    rw [encodable.apart row member other otherMember (same ▸ List.prefix_refl _)]

theorem loads (encodable : Encodable rows) (entries : List (Value × Value)) :
    ∃ start, ofDefaults (.dict entries) (encoded rows) = .ok start := by
  refine encodable.legible.loads_iff.mpr ?_
  rw [encodable.settingsAmong]
  exact List.pairwise_of_forall_mem_list encodable.compatible.apart

end Encodable

/-- A clean key can be had back from the name of its variable. Without defaults, variables for clean
    keys, none of which begins another one, are loaded, and set each key to what its own text
    denotes and no other key that does not begin one of them, whatever is looked up in between. -/
theorem encoded_faithful {rows : List (String × String)} (encodable : Encodable rows) :
    (∀ key, CleanKey key → variableKey? (variableName key) = some key) ∧
      ∃ start, ofDefaults (.dict []) (encoded rows) = .ok start ∧
        ∀ history, (∀ operation ∈ history, operation.LooksOnly) → ∀ default,
          (∀ row ∈ rows, (value row.1 default (after start history)).1 = readText row.2) ∧
          ∀ key, (∀ row ∈ rows, ¬pathOf key <+: pathOf row.1) →
            (value key default (after start history)).1 = .ok default := by
  obtain ⟨start, made⟩ := encodable.loads []
  refine ⟨fun key => variableKey?_variableName, start, made, fun history looks default => ?_⟩
  obtain ⟨found, tree, merged, read, assigned, shows⟩ := ofDefaults_shows .empty made
  obtain rfl := Except.ok.inj (encodable.legible.readVariables.symm.trans read)
  have leaves := encodable.legible.settings_leaves
  rw [encodable.settingsAmong] at assigned leaves
  have same (key : String) := (ofDefaults_sound made).1.value_after_looks looks key default
  constructor
  · intro row member
    have inside := List.mem_map_of_mem (f := fun row => (row.1, denoted row.2)) member
    have own := encodable.compatible.ending_own assigned inside (leaves _ inside)
    rw [same, shows.value_leaf own, (encodable.denotes member).1]
  · intro key apart
    have unset : (ending (pathOf key) (some tree)).visible = .absent := by
      refine ending_unset leaves assigned (pathOf_ne_nil key) ?_
      simpa only [List.forall_mem_map] using apart
    have absent : (ending (pathOf key) (some (.dict []))).visible = .absent := by
      obtain ⟨part, rest, path⟩ := List.exists_cons_of_ne_nil (pathOf_ne_nil key)
      rw [path, ending_empty]
      rfl
    rw [same, shows.value_default unset absent]

/-- Two clean keys with an underscore between letters. -/
def Sample.spelled : List (String × String) := [("a_b.c1", "7"), ("a_b.d", "[]")]

theorem Sample.spelled_encoded :
    encoded Sample.spelled = [("VALIDEX_A_B__C1", "7"), ("VALIDEX_A_B__D", "[]")] := by decide

theorem Sample.spelled_encodable : Encodable Sample.spelled := by
  have parts : CleanSegment "a_b" ∧ CleanSegment "c1" ∧ CleanSegment "d" :=
    ⟨by constructor <;> decide, by constructor <;> decide, by constructor <;> decide⟩
  obtain ⟨front, number, letter⟩ := parts
  have numberPath : pathOf "a_b.c1" = ["a_b", "c1"] := by rfl
  have letterPath : pathOf "a_b.d" = ["a_b", "d"] := by rfl
  refine ⟨by decide, ?_, ?_, ?_⟩
  · simp only [Sample.spelled, List.forall_mem_cons]
    exact ⟨⟨["a_b", "c1"], by simp, by simp [front, number], rfl⟩,
      ⟨["a_b", "d"], by simp, by simp [front, letter], rfl⟩, List.forall_mem_nil _⟩
  · simp [Sample.spelled, numberPath, letterPath]
  · simp only [Sample.spelled, List.forall_mem_cons]
    exact ⟨⟨.int 7, rfl, by simp⟩, ⟨.list [], rfl, by simp⟩, List.forall_mem_nil _⟩

theorem encoded_faithful_sample :
    ∃ start,
      ofDefaults (.dict []) [("VALIDEX_A_B__C1", "7"), ("VALIDEX_A_B__D", "[]")] = .ok start ∧
      (value "a_b.c1" .none start).1 = .ok (.int 7) ∧
      (value "a_b.d" .none start).1 = .ok (.list []) ∧
      (value "a_b.e" (.str "unset") start).1 = .ok (.str "unset") := by
  obtain ⟨-, start, made, reads⟩ := encoded_faithful Sample.spelled_encodable
  rw [Sample.spelled_encoded] at made
  obtain ⟨given, -⟩ := reads [] (List.forall_mem_nil _) .none
  obtain ⟨-, unset⟩ := reads [] (List.forall_mem_nil _) (.str "unset")
  simp only [Sample.spelled, List.forall_mem_cons] at given unset
  refine ⟨start, made, given.1, given.2.1, unset "a_b.e" ?_⟩
  have numberPath : pathOf "a_b.c1" = ["a_b", "c1"] := by rfl
  have letterPath : pathOf "a_b.d" = ["a_b", "d"] := by rfl
  have otherPath : pathOf "a_b.e" = ["a_b", "e"] := by rfl
  simp [numberPath, letterPath, otherPath]

end Settings

end FieldRules
