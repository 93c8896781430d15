import FieldRules.Proofs.Settings.Layers
import FieldRules.Proofs.Settings.Reading
import FieldRules.Proofs.Workspace

/-! # What settings remember

Settings keep the joined tree and what was looked up in it until a source changes. Since whatever
changes a source marks them, a look-up never sees anything but the sources as they are, and what it
gives is what the source that decides about its key says.
-/

namespace FieldRules.Settings

variable {settings : Settings} {α β : Type}

/-! ## Looking up -/

/-- Whatever was looked up stands in the tree. -/
def Remembers (cache : Keyed Value) (merged : List (Value × Value)) : Prop :=
  ∀ key value, cache.get? key = some value → walk? (pathOf key) (.dict merged) = some value

theorem Remembers.put {cache : Keyed Value} {merged : List (Value × Value)}
    (remembers : Remembers cache merged) {key : String} {value : Value}
    (walked : walk? (pathOf key) (.dict merged) = some value) :
    Remembers (cache.put key value) merged := by
  intro other before was
  rw [Keyed.get?_put] at was
  split at was
  next same => rwa [same, ← was]
  next => exact remembers other before was

/-- Unless a source has changed, the joined tree is that of the sources, and what was looked up is
remembered from it. -/
structure Sound (settings : Settings) : Prop where
  merged : settings.dirty = false → joined settings.sources = .ok settings.merged
  kept : settings.dirty = false → Remembers settings.cache settings.merged

theorem Sound.ofDirty (dirty : settings.dirty = true) : settings.Sound where
  merged clean := by simp [dirty] at clean
  kept clean := by simp [dirty] at clean

/-- Joining the trees again comes to the joined tree of the sources, or fails as joining does. -/
theorem Sound.refreshed (sound : settings.Sound) :
    (∃ merged cache, joined settings.sources = .ok merged ∧ Remembers cache merged ∧
      refresh settings = (.ok (), { settings with merged, cache, dirty := false })) ∨
    ∃ fault, joined settings.sources = .error fault ∧
      refresh settings = (.error fault, settings) := by
  obtain ⟨sources, merged, cache, dirty⟩ := settings
  simp only [refresh, Task.bind_eq, Task.get_eq]
  cases dirty with
  | false => exact .inl ⟨merged, cache, sound.merged rfl, sound.kept rfl, rfl⟩
  | true =>
      simp only [if_true]
      cases given : joined sources with
      | ok merged => exact .inl ⟨merged, [], rfl, nofun, rfl⟩
      | error fault => exact .inr ⟨fault, rfl, rfl⟩

/-- A look-up gives what stands in the joined tree, whether or not it was looked up before. -/
theorem Sound.found (sound : settings.Sound) (key : String) :
    (find? key settings).1 =
        (joined settings.sources).map (fun merged => walk? (pathOf key) (.dict merged)) ∧
      (find? key settings).2.Sound ∧ (find? key settings).2.sources = settings.sources := by
  simp only [find?, Task.bind_eq]
  rcases sound.refreshed with ⟨merged, cache, given, remembers, ran⟩ | ⟨fault, given, ran⟩
  · simp only [ran, given, Task.get_eq, Except.map]
    cases cached : cache.get? key with
    | some value =>
        rw [remembers key value cached]
        exact ⟨rfl, ⟨fun _ => given, fun _ => remembers⟩, rfl⟩
    | none =>
        cases walked : walk? (pathOf key) (.dict merged) with
        | none => exact ⟨rfl, ⟨fun _ => given, fun _ => remembers⟩, rfl⟩
        | some value => exact ⟨rfl, ⟨fun _ => given, fun _ => remembers.put walked⟩, rfl⟩
  · rw [ran, given]
    exact ⟨rfl, sound, rfl⟩

theorem value_eq (key : String) (default : Value) (settings : Settings) :
    (value key default settings).1 = (find? key settings).1.map (·.getD default) := by
  rw [value, Task.bind_eq]
  rcases find? key settings with ⟨fault | found, settings'⟩ <;> rfl

/-- What is found once is found again. -/
theorem find?_again (key : String) (settings : Settings) :
    (find? key (find? key settings).2).1 = (find? key settings).1 := by
  -- Behind the joining of trees nothing is marked, so that the second look-up joins none.
  have clean (sources : List Source) (merged : List (Value × Value)) (cache : Keyed Value) :
      (find? key (find? key ⟨sources, merged, cache, false⟩).2).1 =
        (find? key ⟨sources, merged, cache, false⟩).1 := by
    have refreshed (cache : Keyed Value) :
        refresh ⟨sources, merged, cache, false⟩ = (.ok (), ⟨sources, merged, cache, false⟩) := rfl
    have kept {cache : Keyed Value} {value : Value} (cached : cache.get? key = some value) :
        find? key ⟨sources, merged, cache, false⟩ =
          (.ok (some value), ⟨sources, merged, cache, false⟩) := by
      simp only [find?, Task.bind_eq, refreshed, Task.get_eq, cached, Task.pure_eq]
    cases cached : cache.get? key with
    | some value => rw [kept cached, kept cached]
    | none =>
        cases walked : walk? (pathOf key) (.dict merged) with
        | none =>
            have found : find? key ⟨sources, merged, cache, false⟩ =
                (.ok none, ⟨sources, merged, cache, false⟩) := by
              simp only [find?, Task.bind_eq, refreshed, Task.get_eq, cached, walked, Task.pure_eq]
            rw [found, found]
        | some value =>
            have found : find? key ⟨sources, merged, cache, false⟩ =
                (.ok (some value), ⟨sources, merged, cache.put key value, false⟩) := by
              simp only [find?, Task.bind_eq, refreshed, Task.get_eq, cached, walked]
              rfl
            have lookedUp : (cache.put key value).get? key = some value := by simp [Keyed.get?_put]
            rw [found, kept lookedUp]
  obtain ⟨sources, merged, cache, dirty⟩ := settings
  cases dirty with
  | false => exact clean sources merged cache
  | true =>
      cases given : joined sources with
      | error fault =>
          have failed : find? key ⟨sources, merged, cache, true⟩ =
              (.error fault, ⟨sources, merged, cache, true⟩) := by
            simp only [find?, refresh, Task.bind_eq, Task.get_eq, if_true, given]
            rfl
          rw [failed, failed]
      | ok tree =>
          have joinedFirst : find? key ⟨sources, merged, cache, true⟩ =
              find? key ⟨sources, tree, [], false⟩ := by
            simp only [find?, refresh, Task.bind_eq, Task.get_eq, if_true, given]
            rfl
          rw [joinedFirst]
          exact clean sources tree []

theorem value_again (key : String) (default : Value) (settings : Settings) :
    (value key default (value key default settings).2).1 = (value key default settings).1 := by
  have looksUp (settings : Settings) : value key default settings =
      ((find? key settings).1.map (·.getD default), (find? key settings).2) := by
    rw [value, Task.bind_eq]
    rcases find? key settings with ⟨fault | found, settings'⟩ <;> rfl
  rw [looksUp, looksUp, find?_again]

/-- What is read as true once is read so again. -/
theorem truth_again (key : String) (default : Value) (settings : Settings) :
    (truth key default (truth key default settings).2).1 = (truth key default settings).1 := by
  obtain ⟨decide, asks, decides⟩ : ∃ decide : Value → SettingsTask Bool,
      truth key default = value key default >>= decide ∧
      ∀ found, ∃ decided, ∀ settings, decide found settings = (.ok decided, settings) :=
    ⟨_, rfl, fun found => by cases found <;> exact ⟨_, fun _ => rfl⟩⟩
  have again := value_again key default settings
  rw [asks, Task.bind_eq, Task.bind_eq]
  rcases ran : value key default settings with ⟨fault | found, settings'⟩ <;>
    simp only [ran] at again ⊢
  · rcases ranAgain : value key default settings' with ⟨outcome, later⟩
    rw [ranAgain] at again
    obtain rfl : outcome = .error fault := again
    rfl
  · obtain ⟨decided, same⟩ := decides found
    simp only [same]
    rcases ranAgain : value key default settings' with ⟨outcome, later⟩
    rw [ranAgain] at again
    obtain rfl : outcome = .ok found := again
    simp only [same]

theorem Sound.joinedTree (sound : settings.Sound) :
    (all settings).1 = (joined settings.sources).map Value.dict := by
  simp only [all, Task.bind_eq]
  rcases sound.refreshed with ⟨merged, cache, given, -, ran⟩ | ⟨fault, given, ran⟩ <;>
    rw [ran, given] <;> rfl

/-- A task that changes no source and leaves nothing behind that is not so. -/
def LooksUp (task : SettingsTask α) : Prop :=
  ∀ settings : Settings, settings.Sound →
    (task settings).2.Sound ∧ (task settings).2.sources = settings.sources

namespace LooksUp

theorem pure (a : α) : LooksUp (Pure.pure a : SettingsTask α) := fun _ sound => ⟨sound, rfl⟩

theorem throw (fault : Fault) : LooksUp (MonadExcept.throw fault : SettingsTask α) :=
  fun _ sound => ⟨sound, rfl⟩

theorem bind {task : SettingsTask α} (first : LooksUp task) {next : α → SettingsTask β}
    (later : ∀ a, LooksUp (next a)) : LooksUp (task >>= next) := by
  intro settings sound
  have here := first settings sound
  rw [Task.bind_eq]
  rcases ran : task settings with ⟨fault | a, settings'⟩ <;> rw [ran] at here
  · exact here
  · have there := later a settings' here.1
    exact ⟨there.1, there.2.trans here.2⟩

theorem find (key : String) : LooksUp (find? key) := fun _ sound => (sound.found key).2

theorem value (key : String) (default : Value) : LooksUp (value key default) :=
  (find key).bind fun _ => pure _

theorem wholeNumber (key : String) (default : Value) : LooksUp (wholeNumber key default) := by
  refine (value key default).bind fun found => ?_
  split
  · exact pure _
  · split
    · exact pure _
    · exact throw _

theorem truth (key : String) (default : Value) : LooksUp (truth key default) := by
  refine (value key default).bind fun found => ?_
  split <;> exact pure _

theorem has (key : String) : LooksUp (has key) := by
  refine (value key .none).bind fun found => ?_
  split <;> exact pure _

theorem item (key : String) : LooksUp (item key) := by
  refine (value key .none).bind fun found => ?_
  split
  · exact throw _
  · exact pure _

theorem part (key : String) : LooksUp (part key) := by
  refine (value key .none).bind fun found => ?_
  split <;> exact pure _

theorem refresh : LooksUp refresh := by
  intro settings sound
  rcases sound.refreshed with ⟨merged, cache, given, remembers, ran⟩ | ⟨fault, given, ran⟩
  · rw [ran]
    exact ⟨⟨fun _ => given, fun _ => remembers⟩, rfl⟩
  · rw [ran]
    exact ⟨sound, rfl⟩

theorem all : LooksUp all := by
  refine refresh.bind fun _ => .bind (fun settings sound => ?_) fun _ => pure _
  exact ⟨sound, rfl⟩

end LooksUp

/-! ## Changing sources -/

/-- The source that the variables of an environment make, unless none of them is a setting. -/
def environmentSource? (environment : List (String × String)) : Outcome (Option Source) := do
  let found ← readVariables environment
  if found.isEmpty then return none
  let tree ← assignAll (.dict []) found
  return some ⟨"env_vars", tree, environmentPriority⟩

theorem loadEnvironment_eq (environment : List (String × String)) (settings : Settings) :
    settings.loadEnvironment environment = (environmentSource? environment).map fun
      | some source => settings.addSource source
      | none => settings := by
  simp only [loadEnvironment, environmentSource?]
  cases readVariables environment with
  | error fault => rfl
  | ok found =>
      cases found with
      | nil => rfl
      | cons row rest =>
          simp only [List.isEmpty_cons, Bool.false_eq_true, if_false, bind, Except.bind]
          cases assignAll (.dict []) (row :: rest) <;> rfl

inductive Operation where
  | addSource (source : Source)
  | loadEnvironment (environment : List (String × String))
  | put (key : String) (value : Value)
  | look (key : String) (default : Value)
  | wholeNumber (key : String) (default : Value)
  | truth (key : String) (default : Value)
  | has (key : String)
  | item (key : String)
  | part (key : String)
  | all

namespace Operation

/-- What an operation leaves behind, whether it succeeds or faults. -/
def perform (settings : Settings) : Operation → Settings
  | addSource source => settings.addSource source
  | loadEnvironment environment => (settings.loadEnvironment environment).toOption.getD settings
  | put key value => (Settings.put key value settings).2
  | look key default => (Settings.value key default settings).2
  | wholeNumber key default => (Settings.wholeNumber key default settings).2
  | truth key default => (Settings.truth key default settings).2
  | has key => (Settings.has key settings).2
  | item key => (Settings.item key settings).2
  | part key => (Settings.part key settings).2
  | all => (Settings.all settings).2

/-- What an operation does to the sources. One that faults changes none, nor does a look-up. -/
def onSources (sources : List Source) : Operation → List Source
  | addSource source => sources ++ [source]
  | loadEnvironment environment =>
    match environmentSource? environment with
    | .ok (some source) => sources ++ [source]
    | _ => sources
  | put key value => (setIn key value sources).toOption.getD sources
  | look .. | wholeNumber .. | truth .. | has _ | item _ | part _ | all => sources

/-- What is added or set is a proper tree. -/
def Proper : Operation → Prop
  | addSource source => source.Proper
  | put _ value => value.Tidy
  | _ => True

theorem perform_sound (sound : settings.Sound) (operation : Operation) :
    (operation.perform settings).Sound ∧
      (operation.perform settings).sources = operation.onSources settings.sources := by
  cases operation with
  | addSource source => exact ⟨.ofDirty rfl, rfl⟩
  | loadEnvironment environment =>
      simp only [perform, onSources, loadEnvironment_eq]
      rcases environmentSource? environment with fault | (_ | source)
      · exact ⟨sound, rfl⟩
      · exact ⟨sound, rfl⟩
      · exact ⟨.ofDirty rfl, rfl⟩
  | put key value =>
      simp only [perform, Settings.put, Task.bind_eq, Task.get_eq, onSources]
      cases setIn key value settings.sources with
      | ok sources => exact ⟨.ofDirty rfl, rfl⟩
      | error fault => exact ⟨sound, rfl⟩
  | look key default => exact LooksUp.value key default settings sound
  | wholeNumber key default => exact LooksUp.wholeNumber key default settings sound
  | truth key default => exact LooksUp.truth key default settings sound
  | has key => exact LooksUp.has key settings sound
  | item key => exact LooksUp.item key settings sound
  | part key => exact LooksUp.part key settings sound
  | all => exact LooksUp.all settings sound

theorem environmentSource?_proper {environment : List (String × String)} {source : Source}
    (given : environmentSource? environment = .ok (some source)) : source.Proper := by
  obtain ⟨found, read, given⟩ := Outcome.bind_ok given
  split at given
  · nomatch given
  · obtain ⟨tree, assigned, given⟩ := Outcome.bind_ok given
    obtain rfl := Option.some.inj (Except.ok.inj given)
    obtain ⟨entries, rfl, tidy⟩ := assignAll_tidy (readVariables_tidy read) .empty assigned
    exact ⟨⟨entries, rfl⟩, tidy⟩

theorem setIn_proper {key : String} {value : Value} (valueTidy : value.Tidy)
    {sources sources' : List Source} (proper : ∀ source ∈ sources, source.Proper)
    (given : setIn key value sources = .ok sources') : ∀ source ∈ sources', source.Proper := by
  induction sources generalizing sources' with
  | nil =>
      obtain ⟨tree, assigned, given⟩ := Outcome.bind_ok given
      obtain rfl := Except.ok.inj given
      obtain ⟨entries, rfl, tidy⟩ := assign_tidy valueTidy .empty (pathOf_ne_nil key) assigned
      exact List.forall_mem_singleton.mpr ⟨⟨entries, rfl⟩, tidy⟩
  | cons first rest ih =>
      obtain ⟨firstProper, restProper⟩ := List.forall_mem_cons.mp proper
      simp only [setIn] at given
      split at given
      · obtain ⟨tree, assigned, given⟩ := Outcome.bind_ok given
        obtain rfl := Except.ok.inj given
        obtain ⟨before, whole⟩ := firstProper.tree
        have beforeTidy := firstProper.tidy
        rw [whole] at assigned beforeTidy
        obtain ⟨entries, rfl, tidy⟩ := assign_tidy valueTidy beforeTidy (pathOf_ne_nil key) assigned
        exact List.forall_mem_cons.mpr ⟨⟨⟨entries, rfl⟩, tidy⟩, restProper⟩
      · obtain ⟨others, changed, given⟩ := Outcome.bind_ok given
        obtain rfl := Except.ok.inj given
        exact List.forall_mem_cons.mpr ⟨firstProper, ih restProper changed⟩

theorem onSources_proper {sources : List Source} (proper : ∀ source ∈ sources, source.Proper)
    {operation : Operation} (fine : operation.Proper) :
    ∀ source ∈ operation.onSources sources, source.Proper := by
  have adding {source : Source} (sourceProper : source.Proper) :
      ∀ other ∈ sources ++ [source], other.Proper :=
    List.forall_mem_append.mpr ⟨proper, List.forall_mem_singleton.mpr sourceProper⟩
  cases operation with
  | addSource source => exact adding fine
  | loadEnvironment environment =>
      simp only [onSources]
      split
      · rename_i given
        exact adding (environmentSource?_proper given)
      · exact proper
  | put key value =>
      simp only [onSources]
      cases given : setIn key value sources with
      | ok changed => exact setIn_proper fine proper given
      | error fault => exact proper
  | _ => exact proper

end Operation

/-! ## Histories -/

/-- What a history of operations leaves behind. -/
def after (settings : Settings) (history : List Operation) : Settings :=
  history.foldl Operation.perform settings

/-- The sources behind a history of operations on settings with defaults and an environment. -/
def layers (defaults : Value) (environment : List (String × String)) (history : List Operation) :
    List Source :=
  (.loadEnvironment environment :: history).foldl Operation.onSources [⟨"defaults", defaults, 0⟩]

theorem after_sound (sound : settings.Sound) (history : List Operation) :
    (after settings history).Sound ∧
      (after settings history).sources = history.foldl Operation.onSources settings.sources := by
  induction history generalizing settings with
  | nil => exact ⟨sound, rfl⟩
  | cons operation rest ih =>
      obtain ⟨next, sources⟩ := operation.perform_sound sound
      rw [List.foldl_cons, ← sources]
      exact ih next

theorem foldl_onSources_proper {sources : List Source}
    (proper : ∀ source ∈ sources, source.Proper) {history : List Operation}
    (fine : ∀ operation ∈ history, operation.Proper) :
    ∀ source ∈ history.foldl Operation.onSources sources, source.Proper := by
  induction history generalizing sources with
  | nil => exact proper
  | cons operation rest ih =>
      obtain ⟨first, others⟩ := List.forall_mem_cons.mp fine
      exact ih (Operation.onSources_proper proper first) others

theorem ofDefaults_sound {defaults : Value} {environment : List (String × String)}
    (made : ofDefaults defaults environment = .ok settings) :
    settings.Sound ∧ settings.sources =
      Operation.onSources [⟨"defaults", defaults, 0⟩] (.loadEnvironment environment) ∧
      ∃ entries, defaults = .dict entries := by
  cases defaults with
  | dict entries =>
      simp only [ofDefaults, loadEnvironment_eq] at made
      simp only [Operation.onSources]
      obtain ⟨source, given, rfl⟩ := Outcome.map_ok made
      rw [given]
      cases source <;> exact ⟨.ofDirty rfl, rfl, entries, rfl⟩
  | _ => simp [ofDefaults] at made

/-- What a look-up with a default gives where a path ends. -/
def Ending.Gives (default : Value) : Ending → Value → Prop
  | leaf value, got => got = value
  | tree, got => ∃ entries, got = .dict entries
  | blocked, got => got = default
  | absent, got => got = default

theorem Ending.gives_found {found : Option Value} {reached : Ending}
    (seen : ending [] found = reached.visible) (default : Value) :
    reached.Gives default (found.getD default) := by
  rcases found with - | (_ | _) <;> cases reached <;> cases seen
  all_goals first
    | exact rfl
    | exact ⟨_, rfl⟩

/-- Behind every history of operations, settings give what their layers say. Of the sources in whose
    trees the key stays, the one of the highest priority decides, and of several ones the last: its
    leaf is given, a dictionary for its tree, and the default if a leaf is in the way. Without such a
    source the default is given. The joined tree, which can always be asked for, gives the same, and
    it is joined from the sources as they are then: nothing that was looked up before plays a part. -/
theorem value_layered {defaults : Value} {environment : List (String × String)} {start : Settings}
    (made : ofDefaults defaults environment = .ok start) (tidy : defaults.Tidy)
    (history : List Operation) (proper : ∀ operation ∈ history, operation.Proper)
    (key : String) (default : Value) :
    let now := after start history
    let sources := layers defaults environment history
    ∃ merged got,
      (all now).1 = .ok (.dict merged) ∧
      (value key default now).1 = .ok got ∧
      joined sources = .ok merged ∧
      got = (walk? (pathOf key) (.dict merged)).getD default ∧
      (∀ source, Decides (pathOf key) sources source →
        (source.ending (pathOf key)).Gives default got) ∧
      ((∃ source, Decides (pathOf key) sources source) ∨
        (∀ source ∈ sources, ¬source.Reaches (pathOf key)) ∧ got = default) := by
  intro now sources
  obtain ⟨startSound, startSources, entries, rfl⟩ := ofDefaults_sound made
  obtain ⟨sound, nowSources⟩ := after_sound startSound history
  have sameSources : now.sources = sources := by
    rw [nowSources, startSources]
    rfl
  have sourcesProper : ∀ source ∈ sources, source.Proper := by
    refine foldl_onSources_proper ?_ (List.forall_mem_cons.mpr ⟨trivial, proper⟩)
    exact List.forall_mem_singleton.mpr ⟨⟨entries, rfl⟩, tidy⟩
  obtain ⟨merged, given⟩ := joined_ok sourcesProper
  have whole := sound.joinedTree
  have found := (sound.found key).1
  rw [sameSources, given] at whole found
  have walked := ending_walk (pathOf key) (.dict merged)
  refine ⟨merged, (walk? (pathOf key) (.dict merged)).getD default, whole, ?_, given, rfl,
    fun source decides => ?_, ?_⟩
  · rw [value_eq, found]
    rfl
  · rw [ending_joined sourcesProper given decides] at walked
    exact Ending.gives_found walked.symm default
  · refine (decides_or_absent (pathOf key) sources).imp_right fun unreached => ⟨unreached, ?_⟩
    rw [ending_joined_absent sourcesProper unreached (pathOf_ne_nil key) given] at walked
    have gives : Ending.absent.Gives default _ := Ending.gives_found walked.symm default
    exact gives

/-- Settings of the same priority as the defaults. -/
def Sample.late : Source :=
  ⟨"late", .dict [(.str "logging", .dict [(.str "level", .str "INFO")])], 0⟩

/-- A look-up, a tree put in the place of a leaf, a value that cannot be put below the new leaf, and
    a source that comes too late. -/
def Sample.overriding : List Operation :=
  [.look "logging.level" .none, .put "logging.level.now" (.str "ERROR"),
    .put "logging.level.now.more" (.int 1), .addSource Sample.late]

def Sample.runtime : Source :=
  ⟨runtimeName, .dict [(.str "logging", .dict [(.str "level", .dict [(.str "now", .str "ERROR")])])],
    runtimePriority⟩

theorem Sample.overriding_layers : layers standardTree [] Sample.overriding =
    [⟨"defaults", standardTree, 0⟩, Sample.runtime, Sample.late] := by
  have now : pathOf "logging.level.now" = ["logging", "level", "now"] := by rfl
  have more : pathOf "logging.level.now.more" = ["logging", "level", "now", "more"] := by rfl
  have unread : environmentSource? [] = .ok none := by rfl
  simp [layers, Sample.overriding, Operation.onSources, setIn, assign, Value.insert,
    Value.lookup?_nil, Value.lookup?_cons, Value.same_str, now, more, unread, Sample.runtime,
    runtimeName, Except.toOption]

theorem value_layered_sample :
    (value "logging.level.now" .none (after standard Sample.overriding)).1 = .ok (.str "ERROR") := by
  have made : ofDefaults standardTree [] = .ok standard := by rfl
  have lateTidy : Sample.late.tree.Tidy := by
    simp only [Sample.late, Value.Tidy.dict_iff, List.forall_mem_singleton, List.pairwise_singleton]
    exact ⟨trivial, trivial, .leaf (by simp)⟩
  have proper : ∀ operation ∈ Sample.overriding, operation.Proper := by
    simp only [Sample.overriding, List.forall_mem_cons]
    exact ⟨trivial, .leaf (by simp), .leaf (by simp), ⟨⟨_, rfl⟩, lateTidy⟩, List.forall_mem_nil _⟩
  obtain ⟨-, got, -, given, -, -, deciding, -⟩ :=
    value_layered made standardTree_tidy Sample.overriding proper "logging.level.now" .none
  have path : pathOf "logging.level.now" = ["logging", "level", "now"] := by rfl
  have ends : Sample.runtime.ending ["logging", "level", "now"] = .leaf (.str "ERROR") := by
    simp [Sample.runtime, Source.ending, ending, Value.lookup?_cons, Value.same_str]
  have decides : Decides ["logging", "level", "now"]
      ([⟨"defaults", standardTree, 0⟩] ++ Sample.runtime :: [Sample.late]) Sample.runtime := by
    refine .among _ _ ?_ ?_ ?_
    · simp [Source.Reaches, ends]
    · simp [Sample.runtime, runtimePriority]
    · simp [Sample.late, Sample.runtime, runtimePriority]
  rw [Sample.overriding_layers, path] at deciding
  have gives := deciding Sample.runtime decides
  rw [ends] at gives
  rw [given, gives]

end FieldRules.Settings
