import FieldRules.Proofs.Settings.History
import FieldRules.Proofs.Settings.Orders

/-! # Variables in different orders

An environment may list the same variables in any order. Whether they can be loaded depends on it
when the setting of one variable is a section of the setting of another one, and what they set does
when two variables are for the same setting.
-/

namespace FieldRules.Settings

variable {entries : List (Value × Value)} {environment order : List (String × String)}

/-! ## Variables with plain texts -/

/-- A text that cannot denote a structure. -/
def PlainText (text : String) : Prop :=
  Text.beginsWith text "\x7b" = false ∧ Text.beginsWith text "[" = false

theorem readText_plain {text : String} (plain : PlainText text) :
    ∃ value, readText text = .ok value ∧ ∀ below, value ≠ .dict below := by
  unfold readText
  split
  · exact ⟨_, rfl, nofun⟩
  · split
    · exact ⟨_, rfl, nofun⟩
    · split
      · exact ⟨_, rfl, nofun⟩
      · split
        · exact ⟨_, rfl, nofun⟩
        · refine ⟨.str text, ?_, nofun⟩
          simp [readStructure, plain.1, plain.2]

/-- What a text denotes if it can be read. -/
def denoted (text : String) : Value := (readText text).toOption.getD .none

theorem denoted_plain {text : String} (plain : PlainText text) :
    readText text = .ok (denoted text) ∧ ∀ below, denoted text ≠ .dict below := by
  obtain ⟨value, read, leaf⟩ := readText_plain plain
  simpa [denoted, read, Except.toOption] using leaf

/-- An environment is a mapping, here with texts that can be read and denote leaves. -/
structure Legible (environment : List (String × String)) : Prop where
  distinct : (Keyed.names environment).Nodup
  reads : ∀ entry ∈ environment, readText entry.2 = .ok (denoted entry.2)
  leaves : ∀ entry ∈ environment, ∀ below, denoted entry.2 ≠ .dict below

/-- An environment is a mapping, here with plain texts only. -/
structure PlainEnvironment (environment : List (String × String)) : Prop where
  distinct : (Keyed.names environment).Nodup
  texts : ∀ entry ∈ environment, PlainText entry.2

/-- The settings that variables with texts that can be read are, in their order. -/
def settingsAmong (environment : List (String × String)) : List (String × Value) :=
  environment.filterMap fun entry => (variableKey? entry.1).map fun key => (key, denoted entry.2)

theorem mem_settingsAmong {row : String × Value} : row ∈ settingsAmong environment ↔
    ∃ entry ∈ environment, variableKey? entry.1 = some row.1 ∧ denoted entry.2 = row.2 := by
  obtain ⟨key, value⟩ := row
  simp only [settingsAmong, List.mem_filterMap, Option.map_eq_some_iff, Prod.mk.injEq]
  constructor
  · rintro ⟨entry, member, _, found, rfl, rfl⟩
    exact ⟨entry, member, found, rfl⟩
  · rintro ⟨entry, member, found, rfl⟩
    exact ⟨entry, member, key, found, rfl, rfl⟩

namespace Legible

theorem readVariables (legible : Legible environment) :
    readVariables environment = .ok (Keyed.ofList (settingsAmong environment)) := by
  have onto (sum : Keyed Value) (entries : List (String × String))
      (reads : ∀ entry ∈ entries, readText entry.2 = .ok (denoted entry.2)) :
      entries.foldlM addVariable sum =
        (.ok (sum.putAll (settingsAmong entries)) : Outcome (Keyed Value)) := by
    induction entries generalizing sum with
    | nil => rfl
    | cons entry rest ih =>
        obtain ⟨first, others⟩ := List.forall_mem_cons.mp reads
        rw [List.foldlM_cons, addVariable, settingsAmong, List.filterMap_cons]
        cases variableKey? entry.1 with
        | none => exact ih sum others
        | some key =>
            simp only [first]
            exact ih _ others
  rw [Settings.readVariables, Keyed.ofList_of_nodup legible.distinct]
  exact onto [] environment legible.reads

theorem settings_leaves (legible : Legible environment) :
    ∀ row ∈ Keyed.ofList (settingsAmong environment), ∀ below, row.2 ≠ .dict below := by
  intro row member
  obtain ⟨entry, inside, -, read⟩ :=
    mem_settingsAmong.mp ((Keyed.mem_putAll member).resolve_left nofun)
  exact read ▸ legible.leaves entry inside

end Legible

namespace PlainEnvironment

theorem perm (plain : PlainEnvironment environment) (same : environment.Perm order) :
    PlainEnvironment order where
  distinct := (same.map _).nodup_iff.mp plain.distinct
  texts entry member := plain.texts entry (same.mem_iff.mpr member)

theorem legible (plain : PlainEnvironment environment) : Legible environment where
  distinct := plain.distinct
  reads entry member := (denoted_plain (plain.texts entry member)).1
  leaves entry member := (denoted_plain (plain.texts entry member)).2

theorem leaves (plain : PlainEnvironment environment) :
    ∀ row ∈ Keyed.ofList (settingsAmong environment), ∀ below, row.2 ≠ .dict below :=
  plain.legible.settings_leaves

theorem readVariables (plain : PlainEnvironment environment) :
    readVariables environment = .ok (Keyed.ofList (settingsAmong environment)) :=
  plain.legible.readVariables

end PlainEnvironment

/-! ## Loading -/

/-- Variables can be loaded if they can be read and what they say can be put into one tree. -/
theorem ofDefaults_ok_iff : (∃ start, ofDefaults (.dict entries) environment = .ok start) ↔
    ∃ found tree, readVariables environment = .ok found ∧
      assignAll (.dict []) found = .ok tree := by
  simp only [ofDefaults, loadEnvironment]
  cases readVariables environment with
  | error fault => simp [bind, Except.bind]
  | ok found =>
      cases found with
      | nil => exact iff_of_true ⟨_, rfl⟩ ⟨[], .dict [], rfl, rfl⟩
      | cons row rest =>
          cases assigned : assignAll (.dict []) (row :: rest) <;>
            simp [bind, Except.bind, pure, Except.pure, assigned]

/-- Variables can be loaded unless one is for a setting that goes on from an earlier one. -/
theorem Legible.loads_iff (legible : Legible environment) :
    (∃ start, ofDefaults (.dict entries) environment = .ok start) ↔
      (Keyed.ofList (settingsAmong environment)).Pairwise fun row later =>
        ¬GoesOn (pathOf row.1) (pathOf later.1) := by
  have free : ∀ row ∈ Keyed.ofList (settingsAmong environment),
      ending (pathOf row.1) (some (.dict [])) ≠ .blocked := by
    intro row _
    obtain ⟨part, rest, same⟩ := List.exists_cons_of_ne_nil (pathOf_ne_nil row.1)
    simp [same, ending_empty]
  have assigned : (∃ tree, assignAll (.dict []) (Keyed.ofList (settingsAmong environment)) =
      .ok tree) ↔ _ := assignAll_ok_iff legible.settings_leaves
  simp only [ofDefaults_ok_iff, legible.readVariables, Except.ok.injEq, exists_and_left,
    exists_eq_left', assigned]
  exact ⟨And.right, fun apart => ⟨free, apart⟩⟩

theorem PlainEnvironment.loads_iff (plain : PlainEnvironment environment) :
    (∃ start, ofDefaults (.dict entries) environment = .ok start) ↔
      (Keyed.ofList (settingsAmong environment)).Pairwise fun row later =>
        ¬GoesOn (pathOf row.1) (pathOf later.1) :=
  plain.legible.loads_iff

/-- What the tree of the defaults with a tree of variables over it leads to. -/
theorem ending_two_layers {environmentTree : Value} {more : List Source}
    (proper : ∀ source ∈ ⟨"defaults", .dict entries, 0⟩ :: more, source.Proper)
    (laid : more = [⟨"env_vars", environmentTree, environmentPriority⟩] ∨
      more = [] ∧ environmentTree = .dict []) {merged : List (Value × Value)}
    (given : joined (⟨"defaults", .dict entries, 0⟩ :: more) = .ok merged) (path : List String) :
    (ending path (some (.dict merged))).visible =
      ((ending path (some environmentTree)).orElse (ending path (some (.dict entries)))).visible := by
  have alone (hidden : ∀ source ∈ more, ¬source.Reaches path) :
      (ending path (some (.dict merged))).visible = (ending path (some (.dict entries))).visible := by
    by_cases reaches : Source.Reaches ⟨"defaults", .dict entries, 0⟩ path
    · refine ending_joined proper given (.among [] more reaches nofun fun source member stays => ?_)
      exact absurd stays (hidden source member)
    · have leaves : ending path (some (.dict entries)) = .absent := Classical.not_not.mp reaches
      have some : path ≠ [] := by
        rintro rfl
        nomatch leaves
      rw [leaves]
      exact ending_joined_absent proper (List.forall_mem_cons.mpr ⟨reaches, hidden⟩) some given
  rcases laid with rfl | ⟨rfl, rfl⟩
  · by_cases reaches : Source.Reaches ⟨"env_vars", environmentTree, environmentPriority⟩ path
    · have decides := Decides.among [⟨"defaults", .dict entries, 0⟩] [] reaches
        (List.forall_mem_singleton.mpr fun _ => by simp [environmentPriority]) nofun
      rw [ending_joined proper given decides]
      exact congrArg Ending.visible (Ending.orElse_of_ne reaches _).symm
    · rw [alone (List.forall_mem_singleton.mpr reaches)]
      have leaves : ending path (some environmentTree) = .absent := Classical.not_not.mp reaches
      rw [leaves]
      rfl
  · rw [alone nofun]
    cases path with
    | nil => rfl
    | cons part rest =>
        rw [ending_empty]
        rfl

/-- Settings show a tree of variables over their defaults. -/
structure Shows (start : Settings) (entries : List (Value × Value)) (tree : Value)
    (merged : List (Value × Value)) : Prop where
  outcome : ∀ key default, (value key default start).1 =
    .ok ((walk? (pathOf key) (.dict merged)).getD default)
  ends : ∀ path, (ending path (some (.dict merged))).visible =
    ((ending path (some tree)).orElse (ending path (some (.dict entries)))).visible

namespace Shows

variable {start : Settings} {tree : Value} {merged : List (Value × Value)} {key : String}

theorem value_leaf (shows : Shows start entries tree merged) {found : Value}
    (own : ending (pathOf key) (some tree) = .leaf found) (default : Value) :
    (value key default start).1 = .ok found := by
  have seen := shows.ends (pathOf key)
  rw [own, ending_walk] at seen
  rw [shows.outcome]
  cases walked : walk? (pathOf key) (.dict merged) with
  | none =>
      rw [walked] at seen
      nomatch seen
  | some got =>
      rw [walked] at seen
      rw [eq_of_ending_leaf seen]
      rfl

theorem value_default (shows : Shows start entries tree merged)
    (unset : (ending (pathOf key) (some tree)).visible = .absent)
    (absent : (ending (pathOf key) (some (.dict entries))).visible = .absent) (default : Value) :
    (value key default start).1 = .ok default := by
  have seen := shows.ends (pathOf key)
  rw [Ending.visible_orElse absent, unset, ending_walk] at seen
  rw [shows.outcome]
  cases walked : walk? (pathOf key) (.dict merged) with
  | none => rfl
  | some got =>
      rw [walked] at seen
      exact absurd seen (ending_nil got)

end Shows

theorem ofDefaults_shows (tidy : (Value.dict entries).Tidy) {start : Settings}
    (made : ofDefaults (.dict entries) environment = .ok start) :
    ∃ found tree merged, readVariables environment = .ok found ∧
      assignAll (.dict []) found = .ok tree ∧ Shows start entries tree merged := by
  obtain ⟨sound, sources, -⟩ := ofDefaults_sound made
  have defaultsProper : Source.Proper ⟨"defaults", .dict entries, 0⟩ := ⟨⟨entries, rfl⟩, tidy⟩
  have proper : ∀ source ∈ start.sources, source.Proper := by
    rw [sources]
    exact Operation.onSources_proper (List.forall_mem_singleton.mpr defaultsProper) trivial
  obtain ⟨merged, given⟩ := joined_ok proper
  have outcome (key : String) (default : Value) : (value key default start).1 =
      .ok ((walk? (pathOf key) (.dict merged)).getD default) := by
    rw [value_eq, (sound.found key).1, given]
    rfl
  obtain ⟨found, tree, read, assigned⟩ := ofDefaults_ok_iff.mp ⟨start, made⟩
  refine ⟨found, tree, merged, read, assigned, outcome, ?_⟩
  simp only [Operation.onSources, Settings.environmentSource?, read, bind, Except.bind] at sources
  cases found with
  | nil =>
      obtain rfl := Except.ok.inj assigned
      simp only [List.isEmpty_nil, if_true, pure, Except.pure] at sources
      rw [sources] at given proper
      exact ending_two_layers proper (.inr ⟨rfl, rfl⟩) given
  | cons row rest =>
      simp only [List.isEmpty_cons, Bool.false_eq_true, if_false, assigned, pure, Except.pure]
        at sources
      rw [sources] at given proper
      exact ending_two_layers proper (.inl rfl) given

theorem PlainEnvironment.shows (plain : PlainEnvironment environment)
    (tidy : (Value.dict entries).Tidy) {start : Settings}
    (made : ofDefaults (.dict entries) environment = .ok start) :
    ∃ tree merged, assignAll (.dict []) (Keyed.ofList (settingsAmong environment)) = .ok tree ∧
      Shows start entries tree merged := by
  obtain ⟨found, tree, merged, read, assigned, shows⟩ := ofDefaults_shows tidy made
  obtain rfl := Except.ok.inj (plain.readVariables.symm.trans read)
  exact ⟨tree, merged, assigned, shows⟩

/-! ## Loading in any order -/

/-- No variable is for a setting that goes on from that of another one. -/
def Apart (environment : List (String × String)) : Prop :=
  ∀ entry ∈ environment, ∀ other ∈ environment, ∀ key longer,
    variableKey? entry.1 = some key → variableKey? other.1 = some longer →
      ¬GoesOn (pathOf key) (pathOf longer)

/-- Variables that are for the same setting say the same. -/
def Agreed (environment : List (String × String)) : Prop :=
  ∀ entry ∈ environment, ∀ other ∈ environment, ∀ key,
    variableKey? entry.1 = some key → variableKey? other.1 = some key →
      readText entry.2 = readText other.2

/-- Two orders of variables can be loaded, and every look-up gives the same after both. -/
def SameSettings (defaults : Value) (first second : List (String × String)) : Prop :=
  ∃ start other, ofDefaults defaults first = .ok start ∧ ofDefaults defaults second = .ok other ∧
    ∀ key default, ∃ given given', (value key default start).1 = .ok given ∧
      (value key default other).1 = .ok given' ∧ Alike given given'

namespace Apart

theorem perm (apart : Apart environment) (same : environment.Perm order) : Apart order :=
  fun entry member other otherMember =>
    apart entry (same.mem_iff.mpr member) other (same.mem_iff.mpr otherMember)

theorem among (apart : Apart environment) : ∀ row ∈ settingsAmong environment,
    ∀ other ∈ settingsAmong environment, ¬GoesOn (pathOf row.1) (pathOf other.1) := by
  intro row member other otherMember
  obtain ⟨entry, inside, key, -⟩ := mem_settingsAmong.mp member
  obtain ⟨second, secondInside, longer, -⟩ := mem_settingsAmong.mp otherMember
  exact apart entry inside second secondInside _ _ key longer

theorem loads (apart : Apart environment) (plain : PlainEnvironment environment) :
    ∃ start, ofDefaults (.dict entries) environment = .ok start := by
  refine plain.loads_iff.mpr (List.pairwise_of_forall_mem_list fun row member later inside => ?_)
  exact apart.among row ((Keyed.mem_putAll member).resolve_left nofun) later
    ((Keyed.mem_putAll inside).resolve_left nofun)

end Apart

theorem Agreed.compatible (agreed : Agreed environment) (apart : Apart environment) :
    Compatible (settingsAmong environment) where
  apart := apart.among
  agree row member other otherMember same := by
    obtain ⟨entry, inside, key, read⟩ := mem_settingsAmong.mp member
    obtain ⟨second, secondInside, key', read'⟩ := mem_settingsAmong.mp otherMember
    rw [← read, ← read', denoted, denoted,
      agreed entry inside second secondInside _ key (same ▸ key')]

theorem sameSettings (apart : Apart environment) (agreed : Agreed environment)
    (plain : PlainEnvironment environment) (tidy : (Value.dict entries).Tidy)
    (same : environment.Perm order) : SameSettings (.dict entries) environment order := by
  obtain ⟨start, made⟩ : ∃ start, ofDefaults (.dict entries) environment = .ok start :=
    apart.loads plain
  obtain ⟨other, otherMade⟩ : ∃ other, ofDefaults (.dict entries) order = .ok other :=
    (apart.perm same).loads (plain.perm same)
  obtain ⟨tree, merged, assigned, shows⟩ := plain.shows tidy made
  obtain ⟨tree', merged', assigned', shows'⟩ := (plain.perm same).shows tidy otherMade
  refine ⟨start, other, made, otherMade, fun key default => ?_⟩
  refine ⟨_, _, shows.outcome key default, shows'.outcome key default, ?_⟩
  refine Alike.walk (fun path => ?_) _ default
  have fits := agreed.compatible apart
  have foundFits := Compatible.ofList fits.apart
  rw [shows.ends, shows'.ends,
    foundFits.ending_perm (fits.ofList_perm (same.filterMap _)) assigned assigned']

/-- Two variables of an environment may stand in front of all others. -/
theorem perm_pair {entry second : String × String} (member : entry ∈ environment)
    (secondMember : second ∈ environment) (different : entry ≠ second) :
    ∃ rest, environment.Perm (entry :: second :: rest) := by
  have inRest : second ∈ environment.erase entry :=
    (List.mem_erase_of_ne different.symm).mpr secondMember
  exact ⟨(environment.erase entry).erase second, (List.perm_cons_erase member).trans
    ((List.perm_cons_erase inRest).cons entry)⟩

/-- A variable cannot be loaded behind another one that is for the beginning of its path. -/
theorem not_loads {entry second : String × String} {rest : List (String × String)}
    (plain : PlainEnvironment (entry :: second :: rest)) {key longer : String}
    (keyed : variableKey? entry.1 = some key) (secondKeyed : variableKey? second.1 = some longer)
    (on : GoesOn (pathOf key) (pathOf longer)) :
    ¬∃ start, ofDefaults (.dict entries) (entry :: second :: rest) = .ok start := by
  rw [plain.loads_iff]
  intro apart
  have different : key ≠ longer := by
    rintro rfl
    exact goesOn_irrefl _ on
  have front : [key, longer] <+:
      (Keyed.ofList (settingsAmong (entry :: second :: rest))).names := by
    have begun := Keyed.names_prefix_putAll [(key, denoted entry.2), (longer, denoted second.2)]
      (settingsAmong rest)
    have same : Keyed.ofList (settingsAmong (entry :: second :: rest)) =
        Keyed.putAll [(key, denoted entry.2), (longer, denoted second.2)] (settingsAmong rest) := by
      simp [settingsAmong, keyed, secondKeyed, Keyed.ofList, Keyed.putAll, Keyed.put, different]
    rwa [same]
  have apartNames : (Keyed.ofList (settingsAmong (entry :: second :: rest))).names.Pairwise
      fun name later => ¬GoesOn (pathOf name) (pathOf later) := List.pairwise_map.mpr apart
  have apartFront := apartNames.sublist front.sublist
  exact (List.pairwise_cons.mp apartFront).1 longer (List.mem_singleton.mpr rfl) on

theorem apart_of_loads (plain : PlainEnvironment environment)
    (loads : ∀ order, environment.Perm order →
      ∃ start, ofDefaults (.dict entries) order = .ok start) : Apart environment := by
  intro entry member other otherMember key longer keyed otherKeyed on
  have different : entry ≠ other := by
    rintro rfl
    obtain rfl := Option.some.inj (keyed.symm.trans otherKeyed)
    exact goesOn_irrefl _ on
  obtain ⟨rest, same⟩ := perm_pair member otherMember different
  exact not_loads (plain.perm same) keyed otherKeyed on (loads _ same)

/-- Of several variables for one setting the last one counts. -/
theorem last_counts {entry : String × String} {rest : List (String × String)}
    (plain : PlainEnvironment (rest ++ [entry])) (apart : Apart (rest ++ [entry]))
    (tidy : (Value.dict entries).Tidy) {key : String} (keyed : variableKey? entry.1 = some key)
    {start : Settings} (made : ofDefaults (.dict entries) (rest ++ [entry]) = .ok start)
    (default : Value) : (value key default start).1 = .ok (denoted entry.2) := by
  obtain ⟨tree, merged, assigned, shows⟩ := plain.shows tidy made
  have found : (key, denoted entry.2) ∈ Keyed.ofList (settingsAmong (rest ++ [entry])) := by
    apply Keyed.mem_of_get?
    have last : settingsAmong (rest ++ [entry]) = settingsAmong rest ++ [(key, denoted entry.2)] := by
      simp [settingsAmong, keyed]
    rw [last]
    exact Keyed.get?_putAll_last [] _ key _
  have own := (Compatible.ofList apart.among).ending_own assigned found (plain.leaves _ found)
  exact shows.value_leaf own default

theorem agreed_of_same (plain : PlainEnvironment environment) (apart : Apart environment)
    (tidy : (Value.dict entries).Tidy) (same : ∀ first second, environment.Perm first →
      environment.Perm second → SameSettings (.dict entries) first second) :
    Agreed environment := by
  intro entry member other otherMember key keyed otherKeyed
  by_cases equal : entry = other
  · rw [equal]
  · obtain ⟨rest, perm⟩ := perm_pair member otherMember equal
    have toFirst : environment.Perm ((rest ++ [entry]) ++ [other]) := by
      have moved : ([entry, other] ++ rest).Perm (rest ++ [entry, other]) := List.perm_append_comm
      rw [List.append_assoc]
      exact perm.trans moved
    have toSecond : environment.Perm ((rest ++ [other]) ++ [entry]) := by
      have moved : ([other, entry] ++ rest).Perm (rest ++ [other, entry]) := List.perm_append_comm
      rw [List.append_assoc]
      exact perm.trans ((List.Perm.swap other entry rest).trans moved)
    obtain ⟨start, start', made, made', alike⟩ := same _ _ toFirst toSecond
    obtain ⟨given, given', outcome, outcome', alike⟩ := alike key .none
    have lastOther :=
      last_counts (plain.perm toFirst) (apart.perm toFirst) tidy otherKeyed made .none
    have lastEntry :=
      last_counts (plain.perm toSecond) (apart.perm toSecond) tidy keyed made' .none
    obtain rfl := Except.ok.inj (outcome.symm.trans lastOther)
    obtain rfl := Except.ok.inj (outcome'.symm.trans lastEntry)
    obtain ⟨read, leaf⟩ := denoted_plain (plain.texts entry member)
    obtain ⟨read', leaf'⟩ := denoted_plain (plain.texts other otherMember)
    have leads := alike []
    rw [ending_leaf leaf, ending_leaf leaf'] at leads
    rw [read, read', Ending.leaf.inj leads]

/-- Whether variables with plain texts can be loaded depends on the order in which their settings are
    first read: none may go on from an earlier one. All orders can be loaded, and all set the same,
    just when no setting goes on from another one and variables of one setting say the same. -/
theorem environment_orders (tidy : (Value.dict entries).Tidy)
    (plain : PlainEnvironment environment) :
    (∃ found, readVariables environment = .ok found ∧
      ((∃ start, ofDefaults (.dict entries) environment = .ok start) ↔
        found.Pairwise fun row later => ¬GoesOn (pathOf row.1) (pathOf later.1))) ∧
    ((∀ order, environment.Perm order → ∃ start, ofDefaults (.dict entries) order = .ok start) ↔
      Apart environment) ∧
    ((∀ first second, environment.Perm first → environment.Perm second →
        SameSettings (.dict entries) first second) ↔
      Apart environment ∧ Agreed environment) := by
  refine ⟨⟨_, plain.readVariables, plain.loads_iff⟩, ⟨apart_of_loads plain, ?_⟩, ?_, ?_⟩
  · exact fun apart order same => (apart.perm same).loads (plain.perm same)
  · intro same
    have loads (order : List (String × String)) (perm : environment.Perm order) :
        ∃ start, ofDefaults (.dict entries) order = .ok start := by
      obtain ⟨start, -, made, -⟩ := same order order perm perm
      exact ⟨start, made⟩
    have apart := apart_of_loads plain loads
    exact ⟨apart, agreed_of_same plain apart tidy same⟩
  · rintro ⟨apart, agreed⟩ first second toFirst toSecond
    have agreedFirst : Agreed first := fun entry member other otherMember =>
      agreed entry (toFirst.mem_iff.mpr member) other (toFirst.mem_iff.mpr otherMember)
    exact sameSettings (apart.perm toFirst) agreedFirst (plain.perm toFirst) tidy
      (toFirst.symm.trans toSecond)

/-- A setting and one below it. -/
def Sample.nested : List (String × String) :=
  [("VALIDEX_LOGGING", "x"), ("VALIDEX_LOGGING__LEVEL", "y")]

/-- Two settings side by side, and a variable that is none. -/
def Sample.siblings : List (String × String) :=
  [("VALIDEX_LOGGING__LEVEL", "DEBUG"), ("HOME", "/"), ("VALIDEX_LOGGING__FORMAT", "json")]

theorem environment_orders_sample :
    (∃ start, ofDefaults standardTree Sample.siblings = .ok start) ∧
      SameSettings standardTree Sample.siblings Sample.siblings.reverse := by
  have level : variableKey? "VALIDEX_LOGGING__LEVEL" = some "logging.level" := by rfl
  have format : variableKey? "VALIDEX_LOGGING__FORMAT" = some "logging.format" := by rfl
  have home : variableKey? "HOME" = none := by rfl
  have levelPath : pathOf "logging.level" = ["logging", "level"] := by rfl
  have formatPath : pathOf "logging.format" = ["logging", "format"] := by rfl
  have plain : PlainEnvironment Sample.siblings := by
    refine ⟨by decide, ?_⟩
    simp only [Sample.siblings, List.forall_mem_cons]
    exact ⟨⟨rfl, rfl⟩, ⟨rfl, rfl⟩, ⟨rfl, rfl⟩, List.forall_mem_nil _⟩
  have apart : Apart Sample.siblings := by
    simp [Apart, Sample.siblings, level, format, home, GoesOn, levelPath, formatPath]
  have agreed : Agreed Sample.siblings := by
    simp [Agreed, Sample.siblings, level, format, home]
  obtain ⟨-, loads, same⟩ := environment_orders standardTree_tidy plain
  exact ⟨loads.mpr apart _ (.refl _),
    same.mpr ⟨apart, agreed⟩ _ _ (.refl _) (List.reverse_perm _).symm⟩

/-- Plain texts of distinct variables that are loaded in one order and not in the other. -/
theorem environment_order_matters :
    (Sample.nested.map fun entry => Text.lower entry.1).Nodup ∧
      (∀ entry ∈ Sample.nested, PlainText entry.2) ∧
      ofDefaults standardTree Sample.nested = .error (.noItemAssignment "str") ∧
      ∃ start, ofDefaults standardTree Sample.nested.reverse = .ok start := by
  have path : pathOf "logging" = ["logging"] := by rfl
  have levelPath : pathOf "logging.level" = ["logging", "level"] := by rfl
  have read : readVariables Sample.nested =
      .ok [("logging", .str "x"), ("logging.level", .str "y")] := by rfl
  have assigned : assignAll (.dict []) [("logging", .str "x"), ("logging.level", .str "y")] =
      .error (.noItemAssignment "str") := by
    simp [assignAll, assign, path, levelPath, Value.insert, Value.lookup?_cons, Value.same_str,
      bind, Except.bind, noRoom, Value.qualifiedTypeName, Value.typeName]
  have readBack : readVariables Sample.nested.reverse =
      .ok [("logging.level", .str "y"), ("logging", .str "x")] := by rfl
  have assignedBack : assignAll (.dict []) [("logging.level", .str "y"), ("logging", .str "x")] =
      .ok (.dict [(.str "logging", .str "x")]) := by
    simp [assignAll, assign, path, levelPath, Value.insert, Value.lookup?_nil, Value.same_str,
      bind, Except.bind, pure, Except.pure]
  refine ⟨by decide, ?_, ?_, ?_⟩
  · simp only [Sample.nested, List.forall_mem_cons]
    exact ⟨⟨rfl, rfl⟩, ⟨rfl, rfl⟩, List.forall_mem_nil _⟩
  · simp [standardTree, ofDefaults, loadEnvironment, read, assigned, bind, Except.bind]
  · simp [standardTree, ofDefaults, loadEnvironment, readBack, assignedBack, bind, Except.bind,
      pure, Except.pure]

end FieldRules.Settings
