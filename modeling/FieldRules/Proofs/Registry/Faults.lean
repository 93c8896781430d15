import FieldRules.Proofs.Registry.History
import FieldRules.Session.Validation

/-! # What goes wrong with rule strings

A registry of the built-in classes refuses a rule string as malformed, for a name that is not
registered, or for arguments that a class rejects. All that a class raises over texts is such a
rejection, with one exception: a pattern that is malformed, or that repeats too often, comes out as
it is.
-/

namespace FieldRules

/-- Whether a fault is one of those by which rules are refused. -/
def Fault.isConfiguration (fault : Fault) : Bool :=
  fault.family == .malformedRuleString || fault.family == .unknownRule ||
    fault.family == .invalidRule

/-! ## Rejected arguments -/

/-- Whether nothing can go wrong but that arguments are rejected. -/
def Outcome.Rejects {α : Type} (outcome : Outcome α) : Prop :=
  ∀ fault, outcome = .error fault → fault.isRejection = true

namespace Outcome.Rejects

variable {α β : Type} {outcome : Outcome α}

theorem ofOk (a : α) : Rejects (.ok a : Outcome α) := fun _ given => nomatch given

theorem ofFault {fault : Fault} (rejection : fault.isRejection = true) :
    Rejects (.error fault : Outcome α) := by
  intro other given
  obtain rfl := Except.error.inj given
  exact rejection

theorem bind (first : Rejects outcome) {next : α → Outcome β} (second : ∀ a, Rejects (next a)) :
    Rejects (outcome >>= next) := by
  cases outcome with
  | error fault => exact ofFault (first fault rfl)
  | ok a => exact second a

end Outcome.Rejects

open Outcome (Rejects)

theorem checkArguments_rejects (callee : String) (implicit : Nat) (required : List String)
    (optional count : Nat) : Rejects (checkArguments callee implicit required optional count) := by
  simp only [checkArguments]
  split
  · exact .ofFault rfl
  · split
    · exact .ofOk ()
    · exact .ofFault rfl

theorem integerRead_rejects (value : Value) (read : Except Number.LiteralError Int) :
    Rejects (integerRead value read) := by
  match read with
  | .ok n => exact .ofOk n
  | .error .malformed => exact .ofFault rfl
  | .error (.tooManyDigits count) => exact .ofFault rfl

theorem Value.toBinary_rejects (text : String) : Rejects (Value.str text).toBinary := by
  simp only [Value.toBinary]
  split
  · exact .ofOk _
  · exact .ofFault rfl

theorem Value.toBound_rejects (text : String) : Rejects (Value.str text).toBound := by
  refine (toBinary_rejects text).bind fun x => ?_
  split <;> exact .ofOk _

namespace BuiltIn

theorem checkCount_rejects (c : BuiltIn) (required : List String) (optional : Nat)
    (arguments : List Value) : Rejects (c.checkCount required optional arguments) :=
  checkArguments_rejects _ _ _ _ _

theorem buildPlain_rejects (c : BuiltIn) (kind : RuleKind) (arguments : List Value) :
    Rejects (c.buildPlain kind arguments) :=
  (c.checkCount_rejects [] 0 arguments).bind fun _ => .ofOk _

/-- Texts are rejected by every class, but for patterns, which come out as they are. -/
theorem build_texts (c : BuiltIn) (texts : List String) :
    Rejects (c.build (texts.map .str)) ∨
      ∃ characters source, c = .regex characters ∧ texts = [source] ∧
        c.build (texts.map .str) = Rule.ofPattern characters (.str source) := by
  cases c with
  | sometimes | required | email | url | numeric | integer | alpha | alphaNumeric | json | array
  | boolean => exact .inl (buildPlain_rejects _ _ _)
  | within | outside => exact .inl (.ofOk _)
  | date => exact .inl ((checkCount_rejects _ _ _ _).bind fun _ => .ofOk _)
  | min | max =>
      left
      cases texts with
      | nil => exact .ofFault rfl
      | cons text rest =>
          refine (checkCount_rejects _ _ _ _).bind fun _ => ?_
          exact (Value.toBound_rejects text).bind fun bound => .ofOk _
  | length =>
      left
      cases texts with
      | nil => exact .ofFault rfl
      | cons least rest =>
          refine (checkCount_rejects _ _ _ _).bind fun _ => ?_
          refine (integerRead_rejects _ _).bind fun n => ?_
          cases rest with
          | nil => exact .ofOk _
          | cons most rest => exact (integerRead_rejects _ _).bind fun m => .ofOk _
  | uuid =>
      left
      cases texts with
      | nil => exact .ofOk _
      | cons version rest =>
          refine (checkCount_rejects _ _ _ _).bind fun _ => ?_
          exact (integerRead_rejects _ _).bind fun n => .ofOk _
  | regex characters =>
      match texts with
      | [] => exact .inl (.ofFault rfl)
      | [source] => exact .inr ⟨characters, source, rfl, rfl, rfl⟩
      | first :: second :: rest =>
          left
          have counting := checkCount_rejects (.regex characters) ["pattern"] 0
            ((first :: second :: rest).map .str)
          rcases counted :
            checkCount (.regex characters) ["pattern"] 0 ((first :: second :: rest).map .str)
            with fault | _
          · have built : build (.regex characters) ((first :: second :: rest).map .str) =
                .error fault := by
              simp only [build, counted]
              rfl
            rw [built]
            exact .ofFault (counting fault counted)
          · simp [checkCount, checkArguments] at counted

end BuiltIn

theorem Value.printed?_texts (texts : List String) :
    (Value.list (texts.map .str)).printed?.isSome = true := by
  have items : (Value.printedItems? (texts.map .str)).isSome = true := by
    induction texts with
    | nil => rfl
    | cons text rest ih =>
        obtain ⟨others, printed⟩ := Option.isSome_iff_exists.mp ih
        simp [Value.printedItems?, Value.printed?, printed]
  simpa [Value.printed?] using items

/-- Over texts a maker reports every rejection. -/
theorem Factory.buildFault_texts (identifier : String) (texts : List String) {cause : Fault} :
    buildFault identifier (texts.map .str) cause =
      if cause.isRejection then .buildFailed identifier (texts.map .str) cause else cause := by
  simp only [buildFault, Value.printed?_texts, if_true]

/-! ## The rules of a string -/

namespace Registry

/-- Whether a registry knows no rules but built-in ones, the strings that it keeps included. -/
structure OfBuiltIns (registry : Registry) : Prop where
  entries : ∀ row ∈ registry.entries, ∃ c, row.2 = .ofClass (.builtIn c)
  cache : ∀ row ∈ registry.cache, ∀ token ∈ row.2, ∃ c, token.factory = .ofClass (.builtIn c)

theorem OfBuiltIns.standard : OfBuiltIns .standard where
  entries row member := by
    obtain ⟨c, _, rfl⟩ := List.mem_map.mp member
    exact ⟨c, rfl⟩
  cache row member := nomatch member

end Registry

variable {w : Workspace}

theorem Registry.OfBuiltIns.closed (builtIns : w.registry.OfBuiltIns) : w.Closed where
  entries row member := by
    obtain ⟨c, made⟩ := builtIns.entries row member
    rw [made]
    trivial
  cache row member token inside := by
    obtain ⟨c, made⟩ := builtIns.cache row member token inside
    rw [made]
    trivial

theorem Registry.OfBuiltIns.tokens (builtIns : w.registry.OfBuiltIns) {spec : String}
    {read : List Token} (given : (Registry.tokens spec w).1 = .ok read) :
    ∀ token ∈ read, ∃ c, token.factory = .ofClass (.builtIn c) := by
  rw [tokens_outcome] at given
  cases cached : w.registry.cache.get? spec with
  | some kept =>
      obtain rfl : kept = read := by simpa [cached] using given
      exact builtIns.cache (spec, kept) (Keyed.mem_of_get? cached)
  | none =>
      rw [cached] at given
      intro token member
      have entry := Token.readAll_factory given token member
      exact builtIns.entries _ (Keyed.mem_of_get? entry)

namespace Token

/-- The fault of making the rule of a token whose maker is a class, if there is one. -/
def fault? (token : Token) : Option Fault :=
  match token.factory with
  | .ofClass c =>
    match c.build (token.arguments.map .str) with
    | .ok _ => none
    | .error cause => some (Factory.buildFault token.identifier (token.arguments.map .str) cause)
  | _ => none

theorem build_ofClass {token : Token} {c : RuleClass} (made : token.factory = .ofClass c) :
    token.build w =
      match c.build (token.arguments.map .str) with
      | .ok rule => (.ok w.rules.next, { w with rules := (w.rules.add rule).2 })
      | .error cause =>
        (.error (Factory.buildFault token.identifier (token.arguments.map .str) cause), w) := by
  simp only [Token.build, made, Factory.construct, Factory.make, Task.bind_eq, Task.tryCatch_eq,
    Task.ofOutcome_eq]
  cases c.build (token.arguments.map .str) <;> rfl

/-- The rule of a token over a built-in class is made, or its arguments are rejected, or it is one
    of a pattern that comes out as it is. -/
theorem fault?_builtIn {token : Token} {c : BuiltIn} (made : token.factory = .ofClass (.builtIn c))
    {fault : Fault} (failed : token.fault? = some fault) :
    (∃ cause, c.build (token.arguments.map .str) = .error cause ∧ cause.isRejection = true ∧
      fault = .buildFailed token.identifier (token.arguments.map .str) cause) ∨
    ∃ characters source p, c = .regex characters ∧ token.arguments = [source] ∧
      Pattern.read source characters = .error p ∧ (p = .malformed ∨ p = .repetitionTooLarge) ∧
        fault = .pattern p := by
  simp only [fault?, made, RuleClass.build] at failed
  rcases built : c.build (token.arguments.map .str) with cause | rule
  · rw [built] at failed
    obtain rfl : Factory.buildFault _ _ cause = fault := by simpa using failed
    rw [Factory.buildFault_texts]
    by_cases rejection : cause.isRejection = true
    · exact .inl ⟨cause, rfl, rejection, if_pos rejection⟩
    · rcases c.build_texts token.arguments with rejects | ⟨characters, source, rfl, single, same⟩
      · exact absurd (rejects cause built) rejection
      · rw [same, Rule.ofPattern] at built
        rcases read : Pattern.read source characters with p | pattern
        · simp only [read, Except.error.injEq] at built
          subst built
          refine .inr ⟨characters, source, p, rfl, single, read, ?_, if_neg rejection⟩
          cases p with
          | malformed | repetitionTooLarge => simp
          | incompatibleFlags | tooManyDigits => exact absurd rfl rejection
        · simp [read] at built
  · simp [built] at failed

end Token

namespace Registry

/-- Tokens over classes are made into rules in order, up to the first that cannot be made. -/
theorem buildTokens_outcome {tokens : List Token}
    (classes : ∀ token ∈ tokens, ∃ c, token.factory = .ofClass c) (w : Workspace) :
    (buildTokens tokens w).1 =
      match tokens.findSome? Token.fault? with
      | some fault => .error fault
      | none => .ok (List.range' w.rules.next tokens.length) := by
  induction tokens generalizing w with
  | nil => rfl
  | cons token rest ih =>
      obtain ⟨⟨c, made⟩, others⟩ := List.forall_mem_cons.mp classes
      simp only [buildTokens, Task.bind_eq, Token.build_ofClass made, List.findSome?_cons]
      rcases built : c.build (token.arguments.map .str) with cause | rule
      · have failed : token.fault? = some (Factory.buildFault token.identifier
            (token.arguments.map .str) cause) := by
          simp only [Token.fault?, made, built]
        rw [failed]
      · have fine : token.fault? = none := by simp only [Token.fault?, made, built]
        have later := ih others { w with rules := (w.rules.add rule).2 }
        simp only [fine, Task.pure_eq]
        rcases ran : buildTokens rest { w with rules := (w.rules.add rule).2 } with ⟨outcome, w'⟩
        rw [ran] at later
        simp only at later
        subst later
        cases rest.findSome? Token.fault? with
        | some fault => rfl
        | none => simp [List.range'_succ]

/-- A rule string comes to the rules of its tokens, or to the first fault of one of them. -/
theorem parse_outcome (builtIns : w.registry.OfBuiltIns) (spec : String) :
    (∃ fault, (tokens spec w).1 = .error fault ∧ (parse spec w).1 = .error fault) ∨
    ∃ read, (tokens spec w).1 = .ok read ∧
      match read.findSome? Token.fault? with
      | some fault => (parse spec w).1 = .error fault
      | none => ∃ ids, (parse spec w).1 = .ok ids := by
  have classes := fun read given => @OfBuiltIns.tokens w builtIns spec read given
  simp only [parse, Task.bind_eq]
  rcases ran : tokens spec w with ⟨fault | read, w'⟩
  · exact .inl ⟨fault, rfl, rfl⟩
  · rw [ran] at classes
    have made : ∀ token ∈ read, ∃ c, token.factory = .ofClass c := fun token member => by
      obtain ⟨c, factory⟩ := classes read rfl token member
      exact ⟨_, factory⟩
    refine .inr ⟨read, rfl, ?_⟩
    have outcome := buildTokens_outcome made w'
    cases found : read.findSome? Token.fault? with
    | some fault => simpa [found] using outcome
    | none =>
        rw [found] at outcome
        exact ⟨_, outcome⟩

/-- Whether the first rule that cannot be made has a pattern that is malformed, for the names of
    characters that its class knows, or that repeats too often. -/
def MeetsBadPattern (read : List Token) (p : Pattern.PatternFault) : Prop :=
  ∃ before identifier source characters behind,
    read = before ++ ⟨identifier, [source], .ofClass (.builtIn (.regex characters))⟩ :: behind ∧
      (∀ token ∈ before, token.fault? = none) ∧ Pattern.read source characters = .error p ∧
      (p = .malformed ∨ p = .repetitionTooLarge)

theorem parse_badPattern (builtIns : w.registry.OfBuiltIns) {spec : String} {read : List Token}
    {p : Pattern.PatternFault} (given : (tokens spec w).1 = .ok read)
    (bad : MeetsBadPattern read p) : (parse spec w).1 = .error (.pattern p) := by
  obtain ⟨before, identifier, source, characters, behind, rfl, made, unread, kind⟩ := bad
  have failed : Token.fault? ⟨identifier, [source], .ofClass (.builtIn (.regex characters))⟩ =
      some (.pattern p) := by
    have built : BuiltIn.build (.regex characters) ([source].map .str) = .error (.pattern p) := by
      show Rule.ofPattern characters (.str source) = _
      simp only [Rule.ofPattern, unread]
    simp only [Token.fault?, RuleClass.build, built, Factory.buildFault_texts]
    rcases kind with rfl | rfl <;> rfl
  have first : (before ++
      ⟨identifier, [source], .ofClass (.builtIn (.regex characters))⟩ :: behind).findSome?
        Token.fault? = some (.pattern p) :=
    List.findSome?_eq_some_iff.mpr ⟨before, _, behind, rfl, failed, made⟩
  rcases parse_outcome builtIns spec with ⟨fault, unread, _⟩ | ⟨other, same, outcome⟩
  · cases unread.symm.trans given
  · obtain rfl := Except.ok.inj (same.symm.trans given)
    simpa [first] using outcome

theorem parse_rejected (builtIns : w.registry.OfBuiltIns) {spec : String}
    {before behind : List Token} {token : Token} {c : BuiltIn} {cause : Fault}
    (given : (tokens spec w).1 = .ok (before ++ token :: behind))
    (made : ∀ earlier ∈ before, earlier.fault? = none)
    (factory : token.factory = .ofClass (.builtIn c))
    (built : c.build (token.arguments.map .str) = .error cause)
    (rejection : cause.isRejection = true) :
    (parse spec w).1 =
      .error (.buildFailed token.identifier (token.arguments.map .str) cause) := by
  have failed : token.fault? =
      some (.buildFailed token.identifier (token.arguments.map .str) cause) := by
    simp only [Token.fault?, factory, RuleClass.build, built, Factory.buildFault_texts, rejection,
      if_true]
  have first := List.findSome?_eq_some_iff.mpr ⟨before, token, behind, rfl, failed, made⟩
  rcases parse_outcome builtIns spec with ⟨fault, unread, _⟩ | ⟨other, same, outcome⟩
  · cases unread.symm.trans given
  · obtain rfl := Except.ok.inj (same.symm.trans given)
    simpa [first] using outcome

/-- Nothing comes out of a rule string but a refusal, unless it meets a bad pattern. -/
theorem parse_refused (builtIns : w.registry.OfBuiltIns) {spec : String} {fault : Fault}
    (faulted : (parse spec w).1 = .error fault) :
    fault.isConfiguration = true ∨
      ∃ read p, (tokens spec w).1 = .ok read ∧ MeetsBadPattern read p ∧ fault = .pattern p := by
  rcases parse_outcome builtIns spec with ⟨other, unread, same⟩ | ⟨read, given, outcome⟩
  · obtain rfl := Except.error.inj (same.symm.trans faulted)
    left
    rw [tokens_outcome] at unread
    cases cached : w.registry.cache.get? spec with
    | some kept => simp [cached] at unread
    | none =>
        rw [cached] at unread
        rcases Token.readAll_fault unread with ⟨_, _, rfl⟩ | ⟨_, rfl⟩ <;> rfl
  · cases found : read.findSome? Token.fault? with
    | none =>
        rw [found] at outcome
        obtain ⟨ids, returned⟩ := outcome
        exact nomatch returned.symm.trans faulted
    | some first =>
        rw [found] at outcome
        obtain rfl := Except.error.inj (outcome.symm.trans faulted)
        obtain ⟨before, token, behind, rfl, failed, made⟩ := List.findSome?_eq_some_iff.mp found
        obtain ⟨c, factory⟩ := builtIns.tokens given token (by simp)
        rcases Token.fault?_builtIn factory failed with
          ⟨cause, _, _, rfl⟩ | ⟨characters, source, p, rfl, single, unread, kind, rfl⟩
        · exact .inl rfl
        · obtain ⟨identifier, arguments, _⟩ := token
          simp only at factory single
          subst factory single
          have bad : MeetsBadPattern _ p :=
            ⟨before, identifier, source, characters, behind, rfl, made, unread, kind⟩
          exact .inr ⟨_, p, given, bad, rfl⟩

theorem parse_builtIns (builtIns : w.registry.OfBuiltIns) (spec : String) :
    (parse spec w).2.registry.OfBuiltIns where
  entries row member := by
    rw [(parse_keeps builtIns.closed spec).kept.entries] at member
    exact builtIns.entries row member
  cache row member := by
    rw [parse_registry] at member
    cases cached : w.registry.cache.get? spec with
    | some kept =>
        rw [tokens_cached cached] at member
        exact builtIns.cache row member
    | none =>
        rw [tokens_uncached cached] at member
        cases tokenized : w.registry.tokenize spec with
        | error fault =>
            rw [tokenized] at member
            exact builtIns.cache row member
        | ok read =>
            rw [tokenized] at member
            rcases Keyed.mem_put member with rfl | old
            · intro token inside
              have entry := Token.readAll_factory tokenized token inside
              exact builtIns.entries _ (Keyed.mem_of_get? entry)
            · exact builtIns.cache row old

end Registry

/-- A table of one rule string is made just if the rules of the string are. -/
theorem RuleTable.ofSheet_single (name spec : String) (w : Workspace) :
    (ofSheet (.rules [(name, .value (.str spec))]) w).1 =
      (Registry.parse spec w).1.map fun ids => [(name, ids.map .bound)] := by
  simp only [ofSheet, RuleSheet.entries, ofEntries, attributeEntries, Task.bind_eq,
    Task.ofOutcome_eq, Task.get_eq, Task.pure_eq]
  rcases Registry.parse spec w with ⟨fault | ids, w'⟩ <;> rfl

/-- Once its settings can be read, a validator is made just if its table is. -/
theorem Session.newValidator_outcome {session : Session} {stops : Bool}
    (settled : (Settings.truth stopSetting (.bool false) (session.settings.item mainId)).1 =
      .ok stops)
    (registry : Nat) (data : Keyed Value) (sheet : RuleSheet) (overrides : Keyed Value) :
    (newValidator registry data sheet overrides session).1.map (fun _ => ()) =
      (RuleTable.ofSheet sheet (session.workspace registry)).1.map fun _ => () := by
  simp only [newValidator, tableOf, inSettings, inRegistry, Task.bind_eq]
  rcases read : Settings.truth stopSetting (.bool false) (session.settings.item mainId)
    with ⟨outcome, settings⟩
  rw [read] at settled
  simp only at settled
  subst settled
  have same : Session.workspace { session with settings := session.settings.set mainId settings }
      registry = session.workspace registry := rfl
  simp only [same]
  rcases RuleTable.ofSheet sheet (session.workspace registry) with ⟨fault | table, w'⟩ <;> rfl

/-- Rule strings over built-in rules. A rule string comes to rules, or it is refused: as malformed,
    for a name that is not registered, or for a rule that is invalid. This is so just if it does not
    meet a bad pattern, which comes out as it is instead of being reported like all other arguments
    that a class rejects. The same goes for tables and validators that are made from the string, and
    the registry is one of built-in rules afterwards. -/
theorem Registry.parse_refusals {w : Workspace} (builtIns : w.registry.OfBuiltIns)
    (spec : String) :
    ((∀ fault, (parse spec w).1 = .error fault → fault.isConfiguration = true) ↔
      ¬∃ read p, (tokens spec w).1 = .ok read ∧ MeetsBadPattern read p) ∧
    (∀ read p, (tokens spec w).1 = .ok read → MeetsBadPattern read p →
      (parse spec w).1 = .error (.pattern p)) ∧
    (∀ before token behind c cause, (tokens spec w).1 = .ok (before ++ token :: behind) →
      (∀ earlier ∈ before, earlier.fault? = none) → token.factory = .ofClass (.builtIn c) →
      c.build (token.arguments.map .str) = .error cause → cause.isRejection = true →
      (parse spec w).1 =
        .error (.buildFailed token.identifier (token.arguments.map .str) cause)) ∧
    (∀ name, (RuleTable.ofSheet (.rules [(name, .value (.str spec))]) w).1 =
      (parse spec w).1.map fun ids => [(name, ids.map .bound)]) ∧
    (∀ name (session : Session) registry data overrides stops, session.workspace registry = w →
      (Settings.truth Session.stopSetting (.bool false)
        (session.settings.item Session.mainId)).1 = .ok stops →
      (Session.newValidator registry data (.rules [(name, .value (.str spec))]) overrides
          session).1.map (fun _ => ()) =
        (parse spec w).1.map fun _ => ()) ∧
    (parse spec w).2.registry.OfBuiltIns := by
  refine ⟨⟨?_, ?_⟩, ?_, ?_, ?_, ?_, parse_builtIns builtIns spec⟩
  · rintro refused ⟨read, p, given, bad⟩
    have configuration := refused _ (parse_badPattern builtIns given bad)
    obtain ⟨_, _, _, _, _, _, _, _, rfl | rfl⟩ := bad <;> exact nomatch configuration
  · intro fine fault faulted
    rcases parse_refused builtIns faulted with configuration | ⟨read, p, given, bad, _⟩
    · exact configuration
    · exact absurd ⟨read, p, given, bad⟩ fine
  · exact fun read p given bad => parse_badPattern builtIns given bad
  · exact fun _ _ _ _ _ given made factory built rejection =>
      parse_rejected builtIns given made factory built rejection
  · exact fun name => RuleTable.ofSheet_single name spec w
  · rintro name session registry data overrides stops rfl settled
    rw [Session.newValidator_outcome settled, RuleTable.ofSheet_single]
    cases (parse spec (session.workspace registry)).1 <;> rfl

/-- A string of which the second rule cannot be made and the third has a bad pattern. -/
theorem Registry.parse_refusals_sample :
    OfBuiltIns .standard ∧
      (parse "in:a,b|length:x|regex:[" { registry := .standard }).1 =
        .error (.buildFailed "length" [.str "x"] (.noInteger (.str "x"))) := by
  have given : (tokens "in:a,b|length:x|regex:[" { registry := .standard }).1 =
      .ok ([⟨"in", ["a", "b"], .ofClass (.builtIn .within)⟩] ++
        ⟨"length", ["x"], .ofClass (.builtIn .length)⟩ ::
          [⟨"regex", ["["], .ofClass (.builtIn .regex)⟩]) := by rfl
  have made : ∀ earlier ∈ [Token.mk "in" ["a", "b"] (.ofClass (.builtIn .within))],
      earlier.fault? = none := by
    intro earlier member
    obtain rfl := List.mem_singleton.mp member
    rfl
  have built : BuiltIn.build .length [.str "x"] = .error (.noInteger (.str "x")) := by rfl
  obtain ⟨_, _, rejected, _⟩ :=
    parse_refusals (w := { registry := .standard }) .standard "in:a,b|length:x|regex:["
  exact ⟨.standard, rejected [⟨"in", ["a", "b"], .ofClass (.builtIn .within)⟩]
    ⟨"length", ["x"], .ofClass (.builtIn .length)⟩ [⟨"regex", ["["], .ofClass (.builtIn .regex)⟩]
    .length (.noInteger (.str "x")) given made rfl built rfl⟩

/-- A pattern that is malformed comes out as it is. -/
theorem Registry.parse_unrefused :
    ∃ fault, (parse "regex:[" { registry := .standard }).1 = .error fault ∧
      fault.isConfiguration = false := by
  have given : (tokens "regex:[" { registry := .standard }).1 =
      .ok ([] ++ [⟨"regex", ["["], .ofClass (.builtIn .regex)⟩]) := by rfl
  have bad := parse_badPattern OfBuiltIns.standard given
    ⟨[], "regex", "[", .known, [], rfl, by simp, rfl, .inl rfl⟩
  exact ⟨_, bad, rfl⟩

end FieldRules
