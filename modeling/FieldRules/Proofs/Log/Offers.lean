import FieldRules.Log.Logging

/-! # What becomes of a record

A logger offers a record to its handlers one after the other. What a handler does with it follows
from the handler alone: it keeps the record, writes a line, or fails, and a failure is the end of
that offer only. `offerAll_offered` says what all of it comes to for handlers that are distinct:
each of them has taken the record once, the others have not, and the lines stand in the order of the
handlers. -/

namespace FieldRules

namespace LogHandler

/-- A handler that has been offered a record. -/
def taking (handler : LogHandler) (record : LogRecord) : LogHandler :=
  if handler.output = .memory ∧ record.level.reaches handler.level = true then
    { handler with records := handler.records ++ [record] }
  else handler

/-- What a handler writes into a text when it is offered a record: nothing unless it writes into
    that text, takes the record and can write it. -/
def written (handler : LogHandler) (record : LogRecord) (buffer : Nat) : String :=
  if handler.output = .stream buffer ∧ record.level.reaches handler.level = true then
    match handler.formatter.format record with
    | .ok line => line ++ "\n"
    | .error _ => ""
  else ""

end LogHandler

namespace Logging

variable {logging logging' : Logging} {record : LogRecord}

/-- Nothing is different but what handlers have kept and written, and that there may be more of
    them. -/
structure SameLoggers (logging logging' : Logging) : Prop where
  next : logging.handlers.next ≤ logging'.handlers.next
  lists : logging'.lists = logging.lists
  loggers : logging'.loggers = logging.loggers
  known : logging'.known = logging.known
  level : logging'.level = logging.level

theorem SameLoggers.refl (logging : Logging) : SameLoggers logging logging :=
  ⟨Nat.le_refl _, rfl, rfl, rfl, rfl⟩

theorem SameLoggers.trans {logging'' : Logging} (first : SameLoggers logging logging')
    (second : SameLoggers logging' logging'') : SameLoggers logging logging'' where
  next := Nat.le_trans first.next second.next
  lists := second.lists.trans first.lists
  loggers := second.loggers.trans first.loggers
  known := second.known.trans first.known
  level := second.level.trans first.level

/-! ## One handler -/

/-- What has become of logging when one handler was offered a record. -/
structure OfferedTo (logging : Logging) (record : LogRecord) (id : Nat) (logging' : Logging) :
    Prop where
  handlers (other : Nat) : logging'.handlers.item other =
    if other = id then (logging.handlers.item id).taking record else logging.handlers.item other
  buffers (buffer : Nat) : logging'.buffers.item buffer =
    logging.buffers.item buffer ++ (logging.handlers.item id).written record buffer
  same : SameLoggers logging logging'

/-- A handler that is not reached, fails, or writes where nothing is read back changes nothing. -/
theorem OfferedTo.unchanged {id : Nat}
    (takes : (logging.handlers.item id).taking record = logging.handlers.item id)
    (writes : ∀ buffer, (logging.handlers.item id).written record buffer = "") :
    OfferedTo logging record id logging := by
  constructor
  · intro other
    split
    next here => rw [takes, here]
    next => rfl
  · intro buffer
    rw [writes, String.append_empty]
  · exact .refl logging

theorem offer_offered (logging : Logging) (record : LogRecord) (id : Nat) :
    OfferedTo logging record id (logging.offer record id) := by
  unfold offer handle
  by_cases reached : record.level.reaches (logging.handlers.item id).level = true
  case neg =>
    rw [if_neg reached]
    apply OfferedTo.unchanged
    · simp [LogHandler.taking, reached]
    · intro buffer
      simp [LogHandler.written, reached]
  case pos =>
    rw [if_pos reached]
    cases output : (logging.handlers.item id).output with
    | memory =>
        simp only [emit, output]
        constructor
        · intro other
          simp [LogHandler.taking, output, reached]
        · intro buffer
          simp [LogHandler.written, output]
        · exact ⟨Nat.le_refl _, rfl, rfl, rfl, rfl⟩
    | stream buffer =>
        have takes : (logging.handlers.item id).taking record = logging.handlers.item id := by
          simp [LogHandler.taking, output]
        cases formatted : (logging.handlers.item id).formatter.format record with
        | error fault =>
            simp only [emit, output, formatted, Except.map]
            apply OfferedTo.unchanged takes
            intro other
            simp [LogHandler.written, formatted]
        | ok line =>
            simp only [emit, output, formatted, Except.map, writeLine]
            constructor
            · intro other
              rw [takes]
              split
              next here => rw [here]
              next => rfl
            · intro other
              simp only [Shelf.modify, Shelf.item_set, LogHandler.written, output, formatted,
                LogOutput.stream.injEq]
              by_cases here : other = buffer
              · simp [here, reached, String.append_assoc]
              · simp [here, Ne.symm here]
            · exact ⟨Nat.le_refl _, rfl, rfl, rfl, rfl⟩
    | console =>
        have takes : (logging.handlers.item id).taking record = logging.handlers.item id := by
          simp [LogHandler.taking, output]
        have writes (buffer : Nat) : (logging.handlers.item id).written record buffer = "" := by
          simp [LogHandler.written, output]
        simp only [emit, output]
        cases (logging.handlers.item id).formatter.format record with
        | error fault => exact .unchanged takes writes
        | ok line => exact .unchanged takes writes
    | broken =>
        simp only [emit, output]
        apply OfferedTo.unchanged
        · simp [LogHandler.taking, output]
        · intro buffer
          simp [LogHandler.written, output]

/-! ## Several handlers -/

/-- Offers a record to handlers one after the other. -/
def offerAll (logging : Logging) (record : LogRecord) (ids : List Nat) : Logging :=
  ids.foldl (fun sum id => sum.offer record id) logging

/-- What has become of logging when handlers were offered a record. -/
structure OfferedToAll (logging : Logging) (record : LogRecord) (ids : List Nat)
    (logging' : Logging) : Prop where
  handlers (id : Nat) : logging'.handlers.item id =
    if id ∈ ids then (logging.handlers.item id).taking record else logging.handlers.item id
  buffers (buffer : Nat) : logging'.buffers.item buffer =
    logging.buffers.item buffer ++
      String.join (ids.map fun id => (logging.handlers.item id).written record buffer)
  same : SameLoggers logging logging'

theorem offerAll_same (ids : List Nat) (logging : Logging) (record : LogRecord) :
    SameLoggers logging (logging.offerAll record ids) := by
  induction ids generalizing logging with
  | nil => exact .refl logging
  | cons id rest ih => exact (offer_offered logging record id).same.trans (ih _)

/-- Every one of distinct handlers takes the record once, whatever the others do with it. -/
theorem offerAll_offered {ids : List Nat} (distinct : ids.Nodup) (logging : Logging)
    (record : LogRecord) : OfferedToAll logging record ids (logging.offerAll record ids) := by
  induction ids generalizing logging with
  | nil =>
      constructor
      · intro id
        simp [offerAll]
      · intro buffer
        simp [offerAll, String.join]
      · exact .refl logging
  | cons first rest ih =>
      obtain ⟨absent, others⟩ := List.nodup_cons.mp distinct
      have once := offer_offered logging record first
      have later := ih others (logging.offer record first)
      -- The handlers behind the first one are as they were, since none of them is the first.
      have left : ∀ id ∈ rest, (logging.offer record first).handlers.item id =
          logging.handlers.item id := by
        intro id member
        have different : id ≠ first := fun same => absent (same ▸ member)
        rw [once.handlers, if_neg different]
      constructor
      · intro id
        refine (later.handlers id).trans ?_
        by_cases here : id = first
        · subst here
          simp [absent, once.handlers]
        · simp [here, once.handlers]
      · intro buffer
        have lines : rest.map (fun id =>
            ((logging.offer record first).handlers.item id).written record buffer) =
              rest.map fun id => (logging.handlers.item id).written record buffer := by
          apply List.map_congr_left
          intro id member
          rw [left id member]
        refine (later.buffers buffer).trans ?_
        rw [once.buffers, lines, List.map_cons, String.join_cons, String.append_assoc]
      · exact once.same.trans later.same

/-! ## Messages -/

/-- Whether a logger lets messages of a level through. -/
def passes (logging : Logging) (id : Nat) (level : LogLevel) : Bool :=
  level.reaches (logging.loggers.item id).level

/-- The record that a logger makes of a message. -/
def recordOf (logging : Logging) (now : Calendar.DateTime) (id : Nat) (level : LogLevel)
    (message : String) (context : Keyed Detail) (fault : Option LoggedFault) : LogRecord where
  level
  message
  timestamp := now
  context := (logging.loggers.item id).context.putAll context
  fault
  logger := (logging.loggers.item id).name

theorem log_eq (logging : Logging) (now : Calendar.DateTime) (id : Nat) (level : LogLevel)
    (message : String) (context : Keyed Detail) (fault : Option LoggedFault) :
    logging.log now id level message context fault =
      if logging.passes id level then
        logging.offerAll (logging.recordOf now id level message context fault)
          (logging.handlersOf (logging.loggers.item id))
      else logging := rfl

theorem log_same (logging : Logging) (now : Calendar.DateTime) (id : Nat) (level : LogLevel)
    (message : String) (context : Keyed Detail) (fault : Option LoggedFault) :
    SameLoggers logging (logging.log now id level message context fault) := by
  rw [log_eq]
  split
  · exact offerAll_same _ logging _
  · exact .refl logging

end Logging

namespace LogLevel

theorem number_inj {level level' : LogLevel} (same : level.number = level'.number) :
    level = level' := by
  cases level <;> cases level' <;> first | rfl | exact absurd same (by decide)

theorem reaches_iff {level bound : LogLevel} :
    level.reaches bound = true ↔ bound.number ≤ level.number := decide_eq_true_iff

theorem reaches_self (level : LogLevel) : level.reaches level = true :=
  reaches_iff.mpr (Nat.le_refl _)

/-- A level is told by the messages that reach it. -/
theorem reaches_inj {bound bound' : LogLevel}
    (same : ∀ level : LogLevel, level.reaches bound = level.reaches bound') : bound = bound' := by
  have first : bound.reaches bound' = true := (same bound).symm.trans (reaches_self bound)
  have second : bound'.reaches bound = true := (same bound').trans (reaches_self bound')
  rw [reaches_iff] at first second
  apply number_inj
  omega

end LogLevel

end FieldRules
