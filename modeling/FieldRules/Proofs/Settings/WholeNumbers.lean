import FieldRules.Proofs.Registry.Faults
import FieldRules.Proofs.Settings.Variables

/-! # Settings as whole numbers

A setting that is asked for as a whole number is converted, and where the conversion rejects what is
set the default stands in. An infinity is not rejected in this way: its conversion overflows, and
nothing heeds that. It is the only value of which this is so.
-/

namespace FieldRules

/-- Only an infinity is neither a whole number nor rejected. -/
theorem Value.toInteger_error {value : Value} {fault : Fault}
    (failed : value.toInteger = .error fault) :
    fault.isRejection = true ∨
      fault = .infinityToInteger ∧ ∃ negative, value = .float (.infinite negative) := by
  cases value with
  | bool | int => nomatch failed
  | float x =>
      cases x with
      | finite negative magnitude => nomatch failed
      | infinite negative =>
          obtain rfl := Except.error.inj failed
          exact .inr ⟨rfl, negative, rfl⟩
      | nan =>
          obtain rfl := Except.error.inj failed
          exact .inl rfl
  | str text => exact .inl (integerRead_rejects _ _ fault failed)
  | bytes octets => exact .inl (integerRead_rejects _ _ fault failed)
  | none | list | tuple | set | dict | date | datetime | missing =>
      obtain rfl := Except.error.inj failed
      exact .inl rfl

namespace Settings

/-- What asking for a whole number makes of a value that is set. -/
def converted (default found : Value) : Outcome Value :=
  match found.toInteger with
  | .ok n => .ok (.int n)
  | .error fault => if fault.isRejection then .ok default else .error fault

theorem wholeNumber_eq (key : String) (default : Value) (settings : Settings) :
    (wholeNumber key default settings).1 =
      (value key default settings).1.bind (converted default) := by
  rw [wholeNumber, Task.bind_eq]
  rcases value key default settings with ⟨fault | found, settings'⟩
  · rfl
  · simp only [Except.bind, converted]
    cases found.toInteger with
    | ok n => rfl
    | error fault =>
        simp only
        split <;> rfl

theorem converted_rejected {default found : Value} (rejected : ∀ n, found.toInteger ≠ .ok n)
    (finite : ∀ negative, found ≠ .float (.infinite negative)) :
    converted default found = .ok default := by
  cases failed : found.toInteger with
  | ok n => exact absurd failed (rejected n)
  | error fault =>
      rcases Value.toInteger_error failed with rejection | ⟨-, negative, infinite⟩
      · simp only [converted, failed, rejection, if_true]
      · exact absurd infinite (finite negative)

theorem converted_error {default found : Value} {fault : Fault} :
    converted default found = .error fault ↔
      fault = .infinityToInteger ∧ ∃ negative, found = .float (.infinite negative) := by
  constructor
  · intro failed
    by_cases infinite : ∃ negative, found = .float (.infinite negative)
    · obtain ⟨negative, rfl⟩ := infinite
      exact ⟨(Except.error.inj failed).symm, negative, rfl⟩
    · by_cases whole : ∃ n, found.toInteger = .ok n
      · obtain ⟨n, whole⟩ := whole
        simp only [converted, whole] at failed
        nomatch failed
      · have kept : converted default found = .ok default :=
          converted_rejected (fun n same => whole ⟨n, same⟩)
            (fun negative same => infinite ⟨negative, same⟩)
        rw [kept] at failed
        nomatch failed
  · rintro ⟨rfl, negative, rfl⟩
    rfl

/-- Behind every history of operations, a look-up gives what stands in the joined tree of the
layers. -/
theorem layers_found {defaults : Value} {environment : List (String × String)} {start : Settings}
    (made : ofDefaults defaults environment = .ok start) (tidy : defaults.Tidy)
    {history : List Operation} (proper : ∀ operation ∈ history, operation.Proper) :
    ∃ merged, joined (layers defaults environment history) = .ok merged ∧
      ∀ key default, (value key default (after start history)).1 =
        .ok ((walk? (pathOf key) (.dict merged)).getD default) := by
  obtain ⟨startSound, startSources, entries, rfl⟩ := ofDefaults_sound made
  obtain ⟨sound, sources⟩ := after_sound startSound history
  have same : (after start history).sources = layers (.dict entries) environment history := by
    rw [sources, startSources]
    rfl
  have layersProper : ∀ source ∈ layers (.dict entries) environment history, source.Proper := by
    refine foldl_onSources_proper ?_ (List.forall_mem_cons.mpr ⟨trivial, proper⟩)
    exact List.forall_mem_singleton.mpr ⟨⟨entries, rfl⟩, tidy⟩
  obtain ⟨merged, given⟩ := joined_ok layersProper
  refine ⟨merged, given, fun key default => ?_⟩
  rw [value_eq, (sound.found key).1, same, given]
  rfl

/-- Behind every history of operations, asking for the whole number at a key raises just if an
    infinity stands there, and then its conversion does. Otherwise what stands there is given as a
    whole number if it can be converted, and the default if it cannot or if nothing is there. -/
theorem wholeNumber_outcome {defaults : Value} {environment : List (String × String)}
    {start : Settings} (made : ofDefaults defaults environment = .ok start) (tidy : defaults.Tidy)
    (history : List Operation) (proper : ∀ operation ∈ history, operation.Proper)
    (key : String) (default : Int) :
    ∃ merged, joined (layers defaults environment history) = .ok merged ∧
      let stored := walk? (pathOf key) (.dict merged)
      let asked := (wholeNumber key (.int default) (after start history)).1
      ((∃ n, asked = .ok (.int n)) ↔ ∀ negative, stored ≠ some (.float (.infinite negative))) ∧
      (∀ fault, asked = .error fault ↔
        fault = .infinityToInteger ∧ ∃ negative, stored = some (.float (.infinite negative))) ∧
      (stored = none → asked = .ok (.int default)) ∧
      ∀ found, stored = some found →
        (∀ n, found.toInteger = .ok n → asked = .ok (.int n)) ∧
        ((∀ n, found.toInteger ≠ .ok n) → (∀ negative, found ≠ .float (.infinite negative)) →
          asked = .ok (.int default)) := by
  obtain ⟨merged, given, looked⟩ := layers_found made tidy proper
  refine ⟨merged, given, ?_⟩
  intro stored asked
  have asks : asked = converted (.int default) (stored.getD (.int default)) := by
    simp only [asked, wholeNumber_eq, looked]
    rfl
  have raises (fault : Fault) : asked = .error fault ↔
      fault = .infinityToInteger ∧ ∃ negative, stored = some (.float (.infinite negative)) := by
    rw [asks, converted_error]
    cases stored <;> simp
  refine ⟨⟨?_, fun finite => ?_⟩, raises, fun absent => ?_, fun found here => ⟨?_, ?_⟩⟩
  · rintro ⟨n, returned⟩ negative infinite
    rw [(raises _).mpr ⟨rfl, negative, infinite⟩] at returned
    nomatch returned
  · cases whole : (stored.getD (.int default)).toInteger with
    | ok n =>
        refine ⟨n, ?_⟩
        simp only [asks, converted, whole]
    | error fault =>
        refine ⟨default, ?_⟩
        rw [asks]
        apply converted_rejected
        · intro n same
          rw [whole] at same
          nomatch same
        · intro negative infinite
          cases here : stored with
          | none =>
              rw [here] at infinite
              nomatch infinite
          | some found =>
              rw [here] at infinite
              exact finite negative (here.trans (congrArg some infinite))
  · rw [asks, absent]
    rfl
  · intro n whole
    simp only [asks, here, Option.getD_some, converted, whole]
  · intro rejected finite
    rw [asks, here]
    exact converted_rejected rejected finite

/-- A number that was set as a text. -/
def Sample.limited : List Operation := [.put "depth" (.str " 1_0 ")]

theorem Sample.limited_joined : joined (layers (.dict []) [] Sample.limited) =
    .ok [(.str "depth", .str " 1_0 ")] := by
  have path : pathOf "depth" = ["depth"] := by rfl
  have unread : environmentSource? [] = .ok none := by rfl
  have laid : layers (.dict []) [] Sample.limited = [⟨"defaults", .dict [], 0⟩,
      ⟨runtimeName, .dict [(.str "depth", .str " 1_0 ")], runtimePriority⟩] := by
    simp [layers, Sample.limited, Operation.onSources, setIn, assign, Value.insert, path, unread,
      runtimeName, Except.toOption]
  rw [laid, joined, List.mergeSort_of_pairwise (by simp [Source.isUnder, runtimePriority])]
  simp [overlaySources, overlayEntries, overlay, Value.insert]

theorem wholeNumber_outcome_sample :
    ∃ start, ofDefaults (.dict []) [] = .ok start ∧
      (wholeNumber "depth" (.int 2) (after start Sample.limited)).1 = .ok (.int 10) ∧
      (wholeNumber "width" (.int 2) (after start Sample.limited)).1 = .ok (.int 2) := by
  obtain ⟨start, made⟩ : ∃ start, ofDefaults (.dict []) [] = .ok start := ⟨_, rfl⟩
  have proper : ∀ operation ∈ Sample.limited, operation.Proper :=
    List.forall_mem_singleton.mpr (.leaf (by simp))
  have outcome (key : String) := wholeNumber_outcome made .empty Sample.limited proper key 2
  simp only [Sample.limited_joined, Except.ok.injEq, exists_eq_left'] at outcome
  obtain ⟨-, -, -, depth⟩ := outcome "depth"
  obtain ⟨-, -, width, -⟩ := outcome "width"
  have depthPath : pathOf "depth" = ["depth"] := by rfl
  have widthPath : pathOf "width" = ["width"] := by rfl
  refine ⟨start, made, (depth (.str " 1_0 ") ?_).1 10 (by rfl), width ?_⟩
  · simp [depthPath, walk?, Value.lookup?_cons, Value.same_str]
  · simp [widthPath, walk?, Value.lookup?_cons, Value.lookup?_nil, Value.same_str]

/-- An infinity that a variable says is not given as a whole number, nor is the default. -/
theorem wholeNumber_raises :
    ∃ start, ofDefaults standardTree [("VALIDEX_X", "inf")] = .ok start ∧
      (wholeNumber "x" (.int 0) start).1 = .error .infinityToInteger := by
  have path : pathOf "x" = ["x"] := by rfl
  have read : readVariables [("VALIDEX_X", "inf")] = .ok [("x", .float (.infinite false))] := by rfl
  have assigned : assignAll (.dict []) [("x", .float (.infinite false))] =
      .ok (.dict [(.str "x", .float (.infinite false))]) := by
    simp [assignAll, assign, path, Value.insert, bind, Except.bind]
  obtain ⟨start, made⟩ : ∃ start, ofDefaults standardTree [("VALIDEX_X", "inf")] = .ok start :=
    ofDefaults_ok_iff.mpr ⟨_, _, read, assigned⟩
  obtain ⟨found, tree, merged, readAgain, assignedAgain, shows⟩ :=
    ofDefaults_shows standardTree_tidy made
  obtain rfl := Except.ok.inj (read.symm.trans readAgain)
  obtain rfl := Except.ok.inj (assigned.symm.trans assignedAgain)
  have own : ending (pathOf "x") (some (.dict [(.str "x", .float (.infinite false))])) =
      .leaf (.float (.infinite false)) := by
    simp [path, ending, Value.lookup?_cons, Value.same_str]
  refine ⟨start, made, ?_⟩
  rw [wholeNumber_eq, shows.value_leaf own]
  rfl

end Settings

end FieldRules
