import FieldRules.Proofs.Log.Live
import FieldRules.Session.Validation

/-! # Validation and its listeners

What is registered, read, normalized and validated is the same whoever listens to the log. The
operations are written here with an audience that hears each message where it is spoken, between the
changes of state and the early ends, and whose faults come up there. Each follows the operation that
writes its messages down, so a session comes to the same with any two configurations of logging, and
also with listeners of any other kind.
-/

namespace FieldRules

variable {σ α β : Type}

/-! ## Operations with an audience -/

namespace Live

open LiveTask

section
variable (audience : Audience σ)

def register (written : Written) (identifier : Option String) : LiveTask σ String := do
  let prepared ← ofTask (Registry.prepare written identifier)
  ofTask (Registry.addEntries [prepared])
  say audience (.registered prepared.1)
  return prepared.1

def extend (entries : List (Option String × Written)) : LiveTask σ Unit := do
  if entries.isEmpty then return
  let prepared ← ofTask (Registry.prepareAll entries)
  ofTask (Registry.addEntries prepared)
  say audience (.extended (prepared.map (·.1)))

/-- Reads a rule string as the entries are now. -/
def tokenized (spec : String) : Task (List Token) := do
  Task.ofOutcome ((← get).registry.tokenize spec)

def tokens (spec : String) : LiveTask σ (List Token) := do
  let (w, _) ← get
  match w.registry.cache.get? spec with
  | some kept =>
    ofTask (Registry.change fun r => { r with hits := r.hits + 1 })
    return kept
  | none =>
    ofTask (Registry.change fun r => { r with misses := r.misses + 1 })
    let read ← ofTask (tokenized spec)
    ofTask (Registry.change fun r => { r with cache := r.cache.put spec read })
    say audience (.parsed spec read.length)
    return read

def parse (spec : String) : LiveTask σ (List RuleId) := do
  ofTask (Registry.buildTokens (← tokens audience spec))

def attributeEntries (written : Written) : LiveTask σ (List TableEntry) :=
  match written with
  | .value (.str spec) => return (← parse audience spec).map .bound
  | written => ofTask (RuleTable.attributeEntries written)

def ofEntries : Keyed Written → LiveTask σ RuleTable
  | [] => return []
  | (name, written) :: rest => do
    let entries ← attributeEntries audience written
    return (name, entries) :: (← ofEntries rest)

def ofSheet (sheet : RuleSheet) : LiveTask σ RuleTable := do
  ofEntries audience (← ofTask (Task.ofOutcome sheet.entries))

def step (overrides : Keyed Value) (name : String) (value : Value) (recorded : Nat)
    (entry : TableEntry) : LiveTask σ Run.Step := do
  let id ← ofTask (entry.resolve value)
  if (← ofTask (Task.ruleOf id)).kind.isSometimes && value.isEmpty then
    say audience (.bypassed name)
    return .bypass
  if ← ofTask (Run.passes id value) then return .found []
  return .found (← ofTask (Run.messages overrides name id recorded))

def checkAttribute (input : RunInput) (name : String) (value : Value) (recorded : List Value)
    (state : Workspace × σ) : List TableEntry → (List Value × Ending) × (Workspace × σ)
  | [] => ((recorded, .finished), state)
  | entry :: rest =>
    match step audience input.overrides name value recorded.length entry state with
    | (.error fault, state) => ((recorded, .faulted fault), state)
    | (.ok .bypass, state) => ((recorded, .finished), state)
    | (.ok (.found messages), state) =>
      let recorded := recorded ++ messages
      if input.stops && !recorded.isEmpty then
        match say audience (.stopped name) state with
        | (.error fault, state) => ((recorded, .faulted fault), state)
        | (.ok (), state) => ((recorded, .stopped), state)
      else checkAttribute input name value recorded state rest

def checkAttributes (input : RunInput) (errors : Errors) (state : Workspace × σ) :
    RuleTable → (Errors × Ending) × (Workspace × σ)
  | [] => ((errors, .finished), state)
  | (name, entries) :: rest =>
    match checkAttribute audience input name (input.valueOf name) [] state entries with
    | ((messages, .finished), state) =>
      checkAttributes input (Run.record errors name messages) state rest
    | ((messages, ending), state) => ((Run.record errors name messages, ending), state)

def run (input : RunInput) (table : RuleTable) (state : Workspace × σ) :
    RunResult × (Workspace × σ) :=
  match checkAttributes audience input [] state table with
  | ((errors, .finished), state) =>
    match say audience (.finished table.length errors.length) state with
    | (.error fault, state) => (⟨errors, .error fault⟩, state)
    | (.ok (), state) => (⟨errors, .ok errors.isEmpty⟩, state)
  | ((errors, .stopped), state) => (⟨errors, .ok false⟩, state)
  | ((errors, .faulted fault), state) => (⟨errors, .error fault⟩, state)

end

end Live

/-! ## What they follow -/

namespace Task.Silent

theorem changing (f : Registry → Registry) : Silent (Registry.change f) :=
  .ofModify fun _ _ => rfl

theorem adding (prepared : List (String × Factory)) : Silent (Registry.addEntries prepared) :=
  .ofModify fun _ _ => rfl

end Task.Silent

theorem TableEntry.resolve_silent (entry : TableEntry) (value : Value) :
    (entry.resolve value).Silent := by
  cases entry with
  | bound id => exact .ofPure id
  | callable c =>
      refine (c.call_detached [value]).silent.bind fun product => ?_
      cases product with
      | shared id => exact .ofPure id
      | fresh rule => exact (Task.Detached.addRule rule).silent
      | value answer =>
          exact (Task.Detached.ofOutcome _).silent.bind fun rule =>
            (Task.Detached.addRule rule).silent
      | foreign => exact (Task.Detached.addRule _).silent

theorem Run.passes_silent (id : RuleId) (value : Value) : (passes id value).Silent := by
  refine (Task.Detached.ruleOf id).silent.bind fun rule => ?_
  split
  · exact .ofPure true
  · exact .bind (fun _ _ => rfl) fun _ => (Task.Detached.ofOutcome _).silent

theorem Run.messages_silent (overrides : Keyed Value) (name : String) (id : RuleId)
    (recorded : Nat) : (messages overrides name id recorded).Silent :=
  .withState (fun _ _ => rfl) fun _ => (Task.Detached.ofOutcome _).silent

/-- Only rule strings are read, and nothing else is worth a message. -/
theorem RuleTable.attributeEntries_silent {written : Written}
    (other : ∀ spec, written ≠ .value (.str spec)) : (attributeEntries written).Silent := by
  refine .withState (fun _ _ => rfl) fun w => ?_
  split
  next spec => exact absurd rfl (other spec)
  next => exact (Task.Detached.ofOutcome _).silent
  next => exact (Task.Detached.ofOutcome _).silent
  next => exact (Task.Detached.ofOutcome _).silent
  next => exact (Task.Detached.ofOutcome _).silent
  next => exact (Task.Detached.ofOutcome _).silent.bind fun entry => .ofPure [entry]

namespace Live

open LiveTask

variable (audience : Audience σ)

theorem register_follows (written : Written) (identifier : Option String) :
    Follows audience (register audience written identifier)
      (Registry.register written identifier) := by
  refine (Follows.ofTask (Registry.prepare_detached written identifier).silent).bind
    fun prepared => ?_
  refine (Follows.ofTask (.adding [prepared])).bind fun _ => ?_
  exact (Follows.say _).bind fun _ => .ofPure prepared.1

theorem extend_follows (entries : List (Option String × Written)) :
    Follows audience (extend audience entries) (Registry.extend entries) := by
  unfold extend Registry.extend
  split
  · exact .ofPure ()
  · refine (Follows.ofTask (Registry.prepareAll_detached entries).silent).bind fun prepared => ?_
    exact (Follows.ofTask (.adding prepared)).bind fun _ => .say _

theorem tokenized_silent (spec : String) : (tokenized spec).Silent :=
  .withState (fun _ _ => rfl) fun _ => (Task.Detached.ofOutcome _).silent

theorem tokens_follows (spec : String) :
    Follows audience (tokens audience spec) (Registry.tokens spec) := by
  refine .withState (fun _ _ => rfl) fun w kept => ?_
  have same : w.quiet.registry = w.registry := rfl
  simp only [same]
  cases w.registry.cache.get? spec with
  | some read => exact (Follows.ofTask (.changing _)).bind fun _ => .ofPure read
  | none =>
      refine (Follows.ofTask (.changing _)).bind fun _ => ?_
      refine (Follows.ofTask (tokenized_silent spec)).bind fun read => ?_
      refine (Follows.ofTask (.changing _)).bind fun _ => ?_
      exact (Follows.say _).bind fun _ => .ofPure read

theorem parse_follows (spec : String) :
    Follows audience (parse audience spec) (Registry.parse spec) :=
  (tokens_follows audience spec).bind fun read =>
    .ofTask (Registry.buildTokens_detached read).silent

theorem attributeEntries_follows (written : Written) :
    Follows audience (attributeEntries audience written)
      (RuleTable.attributeEntries written) := by
  unfold attributeEntries
  split
  next spec =>
    have read : RuleTable.attributeEntries (.value (.str spec)) =
        (Registry.parse spec >>= fun ids => pure (ids.map .bound)) := rfl
    rw [read]
    exact (parse_follows audience spec).bind fun ids => .ofPure _
  next written other => exact .ofTask (RuleTable.attributeEntries_silent other)

theorem ofEntries_follows (entries : Keyed Written) :
    Follows audience (ofEntries audience entries) (RuleTable.ofEntries entries) := by
  induction entries with
  | nil => exact .ofPure []
  | cons row rest ih =>
      obtain ⟨name, written⟩ := row
      refine (attributeEntries_follows audience written).bind fun entries => ?_
      exact ih.bind fun table => .ofPure _

theorem ofSheet_follows (sheet : RuleSheet) :
    Follows audience (ofSheet audience sheet) (RuleTable.ofSheet sheet) :=
  (Follows.ofTask (Task.Detached.ofOutcome _).silent).bind (ofEntries_follows audience)

theorem step_follows (overrides : Keyed Value) (name : String) (value : Value) (recorded : Nat)
    (entry : TableEntry) :
    Follows audience (step audience overrides name value recorded entry)
      (Run.step overrides name value recorded entry) := by
  refine (Follows.ofTask (entry.resolve_silent value)).bind fun id => ?_
  refine (Follows.ofTask (Task.Detached.ruleOf id).silent).bind fun rule => ?_
  split
  · exact (Follows.say _).bind fun _ => .ofPure Run.Step.bypass
  · refine (Follows.ofTask (Run.passes_silent id value)).bind fun passed => ?_
    split
    · exact .ofPure (Run.Step.found [])
    · exact (Follows.ofTask (Run.messages_silent overrides name id recorded)).bind
        fun messages => .ofPure (Run.Step.found messages)

theorem checkAttribute_follows (input : RunInput) (name : String) (value : Value)
    (recorded : List Value) (w : Workspace) (kept : σ) (entries : List TableEntry) :
    checkAttribute audience input name value recorded (w.told audience kept) entries =
      let ran := Run.checkAttribute input name value recorded w entries
      (ran.1, ran.2.told audience kept) := by
  induction entries generalizing recorded w with
  | nil => rfl
  | cons entry rest ih =>
      rw [checkAttribute, step_follows audience _ name value recorded.length entry w kept,
        Run.checkAttribute]
      rcases Run.step input.overrides name value recorded.length entry w with ⟨outcome, w'⟩
      cases outcome with
      | error fault => rfl
      | ok found =>
          cases found with
          | bypass => rfl
          | found messages =>
              simp only
              split
              · -- The message is heard before the run ends.
                have heard : say audience _ (w'.told audience kept) = _ :=
                  Follows.say (.stopped name) w' kept
                rw [heard]
                rfl
              · exact ih _ w'

theorem checkAttributes_follows (input : RunInput) (errors : Errors) (w : Workspace) (kept : σ)
    (table : RuleTable) :
    checkAttributes audience input errors (w.told audience kept) table =
      let ran := Run.checkAttributes input errors w table
      (ran.1, ran.2.told audience kept) := by
  induction table generalizing errors w with
  | nil => rfl
  | cons row rest ih =>
      obtain ⟨name, entries⟩ := row
      rw [checkAttributes, checkAttribute_follows, Run.checkAttributes]
      rcases Run.checkAttribute input name (input.valueOf name) [] w entries with
        ⟨⟨messages, ending⟩, w'⟩
      cases ending with
      | finished => exact ih _ w'
      | stopped | faulted => rfl

theorem run_follows (input : RunInput) (table : RuleTable) (w : Workspace) (kept : σ) :
    run audience input table (w.told audience kept) =
      let ran := FieldRules.run input table w
      (ran.1, ran.2.told audience kept) := by
  rw [run, checkAttributes_follows, FieldRules.run]
  rcases Run.checkAttributes input [] w table with ⟨⟨errors, ending⟩, w'⟩
  cases ending with
  | finished =>
      have heard : say audience _ (w'.told audience kept) = _ :=
        Follows.say (.finished table.length errors.length) w' kept
      simp only [heard]
      rfl
  | stopped | faulted => rfl

end Live

/-! ## Sessions -/

/-- An operation on a session with an audience. -/
abbrev LiveAction (σ α : Type) := ExceptT Fault (StateM (Session × σ)) α

namespace Session

/-- Adds a registry. -/
def addRegistry (registry : Registry) : Action Nat := do
  let s ← get
  let (id, registries) := s.registries.add registry
  set { s with registries }
  return id

/-- Adds a validator. -/
def addValidator (v : Validator) : Action Nat := do
  let s ← get
  let (id, validators) := s.validators.add v
  set { s with validators }
  return id

end Session

namespace Live

open Session

/-- An action that does not speak to the audience. -/
def ofAction (action : Action α) : LiveAction σ α := fun (s, kept) =>
  let (outcome, s) := action s
  (outcome, (s, kept))

/-- Does a task with a registry and an audience. -/
def inRegistry (registry : Nat) (task : LiveTask σ α) : LiveAction σ α := fun (s, kept) =>
  let (outcome, (w, kept)) := task (s.workspace registry, kept)
  (outcome, (s.absorb registry w, kept))

section
variable (audience : Audience σ)

def newRegistry (withStandard : Bool) (entries : List (Option String × Written)) :
    LiveAction σ Nat := do
  let id ← ofAction (addRegistry (if withStandard then .standard else {}))
  inRegistry id (extend audience entries)
  return id

def newValidator (registry : Nat) (data : Keyed Value) (sheet : RuleSheet)
    (overrides : Keyed Value) : LiveAction σ Nat := do
  let stops ← ofAction (inSettings mainId (Settings.truth stopSetting (.bool false)))
  let table ← inRegistry registry (ofSheet audience sheet)
  ofAction (addValidator { registry, data, overrides, stops, table })

def setRules (id : Nat) (sheet : RuleSheet) : LiveAction σ Unit := do
  let v ← ofAction (validatorOf id)
  let table ← inRegistry v.registry (ofSheet audience sheet)
  ofAction (changeValidator id fun v => { v with table })

def validate (id : Nat) : LiveAction σ Bool := fun (s, kept) =>
  let v := s.validators.item id
  let (result, (w, kept)) :=
    run audience ⟨v.data, v.overrides, v.stops⟩ v.table (s.workspace v.registry, kept)
  let s := s.absorb v.registry w
  let validators := s.validators.set id { v with errors := result.errors }
  (result.verdict, ({ s with validators }, kept))

def result (id : Nat) : LiveAction σ ValidationResult := do
  let valid ← validate audience id
  let v ← ofAction (validatorOf id)
  return { valid, data := passedData v.data v.table v.errors, errors := v.errors }

end

end Live

/-! ## What is heard over histories -/

namespace Session

/-- What a step comes to from a session on: it gives `b` and leaves `s'`, whatever logging is
    configured, and the messages are delivered to the loggers; with any audience it does the same,
    and the audience hears these messages. -/
structure Course {β : Type} (s : Session) (step : Session → β × Session)
    (live : ∀ σ : Type, Audience σ → Session × σ → β × (Session × σ)) (b : β) (s' : Session)
    (events : List LogEvent) : Prop where
  now : s'.now = s.now
  logging : s'.logging = s.logging
  delivered (logging : Logging) :
    step { s with logging } = (b, { s' with logging := events.foldl (deliver s.now) logging })
  heard (σ : Type) (audience : Audience σ) (kept : σ) :
    live σ audience (s, kept) = (b, (s', events.foldl audience.hear kept))

/-- Whether a step comes to the same whoever listens. -/
def Unheeded {β : Type} (step : Session → β × Session)
    (live : ∀ σ : Type, Audience σ → Session × σ → β × (Session × σ)) : Prop :=
  ∀ s, ∃ b s' events, Course s step live b s' events

namespace Unheeded

/-- An action that has nothing to do with logging. -/
theorem ofAction {action : Action α} (now : ∀ s, (action s).2.now = s.now)
    (apart : ∀ s logging,
      action { s with logging } = ((action s).1, { (action s).2 with logging })) :
    Unheeded action fun _ _ => Live.ofAction action := by
  intro s
  refine ⟨_, _, [], now s, ?_, apart s, fun _ _ _ => rfl⟩
  exact congrArg (fun run => run.2.logging) (apart s s.logging)

theorem ofPure (a : α) : Unheeded (pure a : Action α) fun _ _ => (pure a : LiveAction _ α) :=
  fun s => ⟨.ok a, s, [], rfl, rfl, fun _ => rfl, fun _ _ _ => rfl⟩

theorem ofTask (registry : Nat) {task : Task α} {live : ∀ σ : Type, Audience σ → LiveTask σ α}
    (follows : ∀ (σ : Type) (audience : Audience σ),
      LiveTask.Follows audience (live σ audience) task) :
    Unheeded (inRegistry registry task) fun σ audience =>
      Live.inRegistry registry (live σ audience) := by
  intro s
  let w := s.workspace registry
  refine ⟨(task w).1, s.absorb registry (task w).2.quiet, (task w).2.events, rfl, rfl, ?_, ?_⟩
  · intro logging
    rfl
  · intro σ audience kept
    -- Nothing has been written down in the workspace that a session gives.
    have ran : live σ audience (w, kept) = _ := follows σ audience w kept
    simp only [Live.inRegistry]
    rw [show s.workspace registry = w from rfl, ran]
    rfl

theorem bind {action : Action α} {live : ∀ σ : Type, Audience σ → LiveAction σ α}
    (first : Unheeded action live) {next : α → Action β}
    {liveNext : α → ∀ σ : Type, Audience σ → LiveAction σ β}
    (second : ∀ a, Unheeded (next a) (liveNext a)) :
    Unheeded (action >>= next) fun σ audience =>
      live σ audience >>= fun a => liveNext a σ audience := by
  intro s
  obtain ⟨outcome, s', events, course⟩ := first s
  cases outcome with
  | error fault =>
      refine ⟨.error fault, s', events, course.now, course.logging, ?_, ?_⟩
      · intro logging
        rw [Task.bind_eq, course.delivered]
      · intro σ audience kept
        exact (Task.bind_eq _ _ _).trans (by rw [course.heard])
  | ok a =>
      obtain ⟨outcome, s'', more, later⟩ := second a s'
      refine ⟨outcome, s'', events ++ more, later.now.trans course.now,
        later.logging.trans course.logging, ?_, ?_⟩
      · intro logging
        rw [Task.bind_eq, course.delivered]
        exact (later.delivered _).trans (by rw [course.now, List.foldl_append])
      · intro σ audience kept
        refine (Task.bind_eq _ _ _).trans ?_
        rw [course.heard]
        exact (later.heard σ audience _).trans (by rw [List.foldl_append])

/-- What is given may be told in another way. -/
theorem told {step : Session → α × Session}
    {live : ∀ σ : Type, Audience σ → Session × σ → α × (Session × σ)}
    (unheeded : Unheeded step live) (tell : α → β) :
    Unheeded (fun s => (step s).map tell id) fun σ audience state =>
      (live σ audience state).map tell id := by
  intro s
  obtain ⟨a, s', events, course⟩ := unheeded s
  refine ⟨tell a, s', events, course.now, course.logging, ?_, ?_⟩
  · intro logging
    rw [course.delivered]
    rfl
  · intro σ audience kept
    rw [course.heard]
    rfl

end Unheeded

theorem newRegistry_unheeded (withStandard : Bool) (entries : List (Option String × Written)) :
    Unheeded (newRegistry withStandard entries) fun _ audience =>
      Live.newRegistry audience withStandard entries := by
  have spelled : newRegistry withStandard entries =
      addRegistry (if withStandard then .standard else {}) >>= fun id =>
        inRegistry id (Registry.extend entries) >>= fun _ => pure id := rfl
  rw [spelled]
  refine (Unheeded.ofAction (fun _ => rfl) fun _ _ => rfl).bind fun id => ?_
  exact (Unheeded.ofTask id fun _ audience => Live.extend_follows audience entries).bind
    fun _ => .ofPure id

theorem newValidator_unheeded (registry : Nat) (data : Keyed Value) (sheet : RuleSheet)
    (overrides : Keyed Value) :
    Unheeded (newValidator registry data sheet overrides) fun _ audience =>
      Live.newValidator audience registry data sheet overrides := by
  refine (Unheeded.ofAction (fun _ => rfl) fun _ _ => rfl).bind fun _ => ?_
  refine (Unheeded.ofTask registry fun _ audience => Live.ofSheet_follows audience sheet).bind
    fun _ => ?_
  exact .ofAction (fun _ => rfl) fun _ _ => rfl

theorem setRules_unheeded (id : Nat) (sheet : RuleSheet) :
    Unheeded (setRules id sheet) fun _ audience => Live.setRules audience id sheet := by
  refine (Unheeded.ofAction (fun _ => rfl) fun _ _ => rfl).bind fun v => ?_
  refine (Unheeded.ofTask v.registry fun _ audience => Live.ofSheet_follows audience sheet).bind
    fun _ => ?_
  exact .ofAction (fun _ => rfl) fun _ _ => rfl

theorem validate_unheeded (id : Nat) :
    Unheeded (validate id) fun _ audience => Live.validate audience id := by
  intro s
  let v := s.validators.item id
  let w := s.workspace v.registry
  let ran := run ⟨v.data, v.overrides, v.stops⟩ v.table w
  let quiet := s.absorb v.registry ran.2.quiet
  refine ⟨ran.1.verdict,
    { quiet with validators := quiet.validators.set id { v with errors := ran.1.errors } },
    ran.2.events, rfl, rfl, ?_, ?_⟩
  · intro logging
    rfl
  · intro σ audience kept
    have heard : Live.run audience ⟨v.data, v.overrides, v.stops⟩ v.table (w, kept) = _ :=
      Live.run_follows audience _ v.table w kept
    simp only [Live.validate]
    rw [show s.workspace v.registry = w from rfl, heard]
    rfl

theorem result_unheeded (id : Nat) :
    Unheeded (result id) fun _ audience => Live.result audience id :=
  (validate_unheeded id).bind fun _ =>
    (Unheeded.ofAction (fun _ => rfl) fun _ _ => rfl).bind fun _ => .ofPure _

end Session

/-- What can be asked of registries, rule strings and validators. -/
inductive ValidationUse where
  | newRegistry (withStandard : Bool) (entries : List (Option String × Written))
  | register (registry : Nat) (written : Written) (identifier : Option String)
  | extend (registry : Nat) (entries : List (Option String × Written))
  /-- Asks for the tokens of a rule string. -/
  | read (registry : Nat) (spec : String)
  | parse (registry : Nat) (spec : String)
  | normalize (registry : Nat) (sheet : RuleSheet)
  | newValidator (registry : Nat) (data : Keyed Value) (sheet : RuleSheet)
      (overrides : Keyed Value)
  | setRules (validator : Nat) (sheet : RuleSheet)
  | validate (validator : Nat)
  | result (validator : Nat)

/-- What is given back, or the fault. -/
inductive Reply where
  | done (outcome : Outcome Unit)
  | added (outcome : Outcome Nat)
  | identifier (outcome : Outcome String)
  | tokens (outcome : Outcome (List Token))
  | rules (outcome : Outcome (List RuleId))
  | table (outcome : Outcome RuleTable)
  | verdict (outcome : Outcome Bool)
  | result (outcome : Outcome ValidationResult)

namespace ValidationUse

open Session

def perform (use : ValidationUse) (s : Session) : Reply × Session :=
  match use with
  | newRegistry withStandard entries =>
    (Session.newRegistry withStandard entries s).map .added id
  | register registry written identifier =>
    (inRegistry registry (Registry.register written identifier) s).map .identifier id
  | extend registry entries => (inRegistry registry (Registry.extend entries) s).map .done id
  | read registry spec => (inRegistry registry (Registry.tokens spec) s).map .tokens id
  | parse registry spec => (inRegistry registry (Registry.parse spec) s).map .rules id
  | normalize registry sheet => (tableOf registry sheet s).map .table id
  | newValidator registry data sheet overrides =>
    (Session.newValidator registry data sheet overrides s).map .added id
  | setRules validator sheet => (Session.setRules validator sheet s).map .done id
  | validate validator => (Session.validate validator s).map .verdict id
  | result validator => (Session.result validator s).map .result id

/-- The same with an audience. -/
def performLive (use : ValidationUse) (audience : Audience σ) (state : Session × σ) :
    Reply × (Session × σ) :=
  match use with
  | newRegistry withStandard entries =>
    (Live.newRegistry audience withStandard entries state).map .added id
  | register registry written identifier =>
    (Live.inRegistry registry (Live.register audience written identifier) state).map .identifier id
  | extend registry entries =>
    (Live.inRegistry registry (Live.extend audience entries) state).map .done id
  | read registry spec =>
    (Live.inRegistry registry (Live.tokens audience spec) state).map .tokens id
  | parse registry spec =>
    (Live.inRegistry registry (Live.parse audience spec) state).map .rules id
  | normalize registry sheet =>
    (Live.inRegistry registry (Live.ofSheet audience sheet) state).map .table id
  | newValidator registry data sheet overrides =>
    (Live.newValidator audience registry data sheet overrides state).map .added id
  | setRules validator sheet => (Live.setRules audience validator sheet state).map .done id
  | validate validator => (Live.validate audience validator state).map .verdict id
  | result validator => (Live.result audience validator state).map .result id

/-- The replies to uses one after the other, and the session behind them. -/
def performAll : List ValidationUse → Session → List Reply × Session
  | [], s => ([], s)
  | use :: rest, s =>
    let (reply, s) := use.perform s
    (performAll rest s).map (reply :: ·) id

/-- The same with an audience. -/
def performAllLive (audience : Audience σ) :
    List ValidationUse → Session × σ → List Reply × (Session × σ)
  | [], state => ([], state)
  | use :: rest, state =>
    let (reply, state) := use.performLive audience state
    (performAllLive audience rest state).map (reply :: ·) id

theorem perform_unheeded (use : ValidationUse) :
    Unheeded use.perform fun _ audience => use.performLive audience := by
  cases use with
  | newRegistry withStandard entries =>
      exact (newRegistry_unheeded withStandard entries).told Reply.added
  | register registry written identifier =>
      exact (Unheeded.ofTask registry fun _ audience =>
        Live.register_follows audience written identifier).told Reply.identifier
  | extend registry entries =>
      exact (Unheeded.ofTask registry fun _ audience =>
        Live.extend_follows audience entries).told Reply.done
  | read registry spec =>
      exact (Unheeded.ofTask registry fun _ audience =>
        Live.tokens_follows audience spec).told Reply.tokens
  | parse registry spec =>
      exact (Unheeded.ofTask registry fun _ audience =>
        Live.parse_follows audience spec).told Reply.rules
  | normalize registry sheet =>
      exact (Unheeded.ofTask registry fun _ audience =>
        Live.ofSheet_follows audience sheet).told Reply.table
  | newValidator registry data sheet overrides =>
      exact (newValidator_unheeded registry data sheet overrides).told Reply.added
  | setRules validator sheet => exact (setRules_unheeded validator sheet).told Reply.done
  | validate validator => exact (validate_unheeded validator).told Reply.verdict
  | result validator => exact (result_unheeded validator).told Reply.result

theorem performAll_unheeded (history : List ValidationUse) :
    Unheeded (performAll history) fun _ audience => performAllLive audience history := by
  induction history with
  | nil => exact fun s => ⟨[], s, [], rfl, rfl, fun _ => rfl, fun _ _ _ => rfl⟩
  | cons use rest ih =>
      intro s
      obtain ⟨reply, s', events, course⟩ := use.perform_unheeded s
      obtain ⟨replies, s'', more, later⟩ := ih s'
      refine ⟨reply :: replies, s'', events ++ more, later.now.trans course.now,
        later.logging.trans course.logging, ?_, ?_⟩
      · intro logging
        rw [performAll, course.delivered]
        refine (congrArg (Prod.map (reply :: ·) id) (later.delivered _)).trans ?_
        rw [course.now, List.foldl_append]
        rfl
      · intro σ audience kept
        rw [performAllLive, course.heard]
        simp only [later.heard, List.foldl_append]
        rfl

end ValidationUse

namespace Session

open ValidationUse

/-- What is asked of a session comes to the same replies, registries, caches and validators with any
    configuration of logging, and with listeners of any kind that hear the messages on the spot,
    whatever they keep and however often they fault. What the loggers of a session would hear on the
    spot is what is delivered to them. -/
theorem logging_unheeded (history : List ValidationUse) (s : Session) :
    ∃ (replies : List Reply) (after : Session) (events : List LogEvent),
      (∀ logging, performAll history { s with logging } =
        (replies, { after with logging := events.foldl (deliver s.now) logging })) ∧
      (∀ (σ : Type) (audience : Audience σ) (kept : σ),
        performAllLive audience history (s, kept) =
          (replies, (after, events.foldl audience.hear kept))) ∧
      ∀ logging, performAllLive (Logging.audience s.now) history (s, logging) =
        (replies, (after, events.foldl (deliver s.now) logging)) := by
  obtain ⟨replies, after, events, course⟩ := performAll_unheeded history s
  refine ⟨replies, after, events, course.delivered, course.heard, ?_⟩
  intro logging
  have same : (Logging.audience s.now).hear = deliver s.now := by
    funext logging event
    exact Logging.audience_hear s.now logging event
  rw [course.heard, same]

end Session

end FieldRules
