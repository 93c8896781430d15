import FieldRules.Number.Literal
import FieldRules.Pattern.Syntax
import FieldRules.Value.Text

/-! # Faults

Everything that can go wrong, as causes.  `Fault.message` gives the wording, `Fault.family` the
broad kind by which callers tell faults apart.  Failing a check is not a fault: faults are
mistakes in the configuration of rules, or values on which an operation is not defined.
-/

namespace FieldRules

/-- The four comparisons by order. -/
inductive Comparison where
  | less
  | atMost
  | greater
  | atLeast
  deriving DecidableEq, Repr

/-- The sign of a comparison. -/
def Comparison.symbol : Comparison → String
  | .less => "<"
  | .atMost => "<="
  | .greater => ">"
  | .atLeast => ">="

/-- The broad kinds of faults. -/
inductive Family where
  | type
  | value
  | key
  | index
  | member
  | overflow
  | runtime
  | notImplemented
  | pattern
  | unknownRule
  | invalidRule
  | malformedRuleString
  | validation
  /-- A kind that only callers know, by its name; true if it is a special case of `value`. -/
  | other (name : String) (ofValue : Bool)
  deriving DecidableEq, Repr

/-- Why arguments do not fit what they are given to. -/
inductive CallFault where
  /-- More positional arguments than the constructor takes, the new object counted among them. -/
  | tooMany (callee : String) (least most given : Nat)
  /-- A required argument is not given. -/
  | missing (callee parameter : String)
  /-- The class takes no arguments at all. -/
  | none (className : String)
  /-- The class leaves its check open. -/
  | abstract (className : String)
  /-- A parameter is given by position and by name. -/
  | repeated (callee parameter : String)
  deriving DecidableEq, Repr

/-- Why a template cannot be filled in. -/
inductive TemplateFault where
  | singleOpen
  | singleClose
  | openInName
  | nameNotClosed
  | conversionMissing
  | colonExpected
  | specNotClosed
  | unknownConversion (c : Char)
  | positional
  | emptyAttribute
  | bracketNotClosed
  | badAfterBracket
  | tooManyDigits
  | tooDeep
  | badSpec (spec typeName : String)
  | precisionMissing
  | commaAndUnderscore
  | separatorWith (separator code : Char)
  | unknownCode (code : Char) (typeName : String)
  | signOnText
  | spaceOnText
  | zeroOnText
  | alternateOnText
  | equalsOnText
  | precisionOnWhole
  | zeroOnWhole
  | signOnCharacter
  | alternateOnCharacter
  | precisionTooBig
  deriving DecidableEq, Repr

/-- Why an entry is no rule or cannot be registered as one. -/
inductive RuleDefect where
  /-- A shared rule is asked for with arguments. -/
  | instanceArguments (identifier : String)
  /-- A factory gives something that is no rule. -/
  | notARule (identifier typeName : String)
  | emptyIdentifier
  /-- The rule, in printed form, has no name to be registered under. -/
  | nameless (printed : String)
  /-- A class, or what a factory gives, is no rule. -/
  | foreign (typeName : String)
  | abstractClass (className : String)
  /-- The entry is neither a rule, a rule class nor callable. -/
  | notAnEntry (typeName : String)
  | notAMapping (typeName : String)
  /-- The rule of an attribute is neither a rule nor callable. -/
  | notCallable (typeName : String)
  deriving DecidableEq, Repr

/-- Why a piece of a rule string is no rule. -/
inductive SpecDefect where
  | emptyRule
  | missingIdentifier
  deriving DecidableEq, Repr

/-- Anything that can go wrong. -/
inductive Fault where
  | unknownRule (identifier : String)
  | invalidRule (defect : RuleDefect)
  /-- A factory rejects its arguments. -/
  | buildFailed (identifier : String) (arguments : List Value) (cause : Fault)
  /-- A factory rejects having no arguments. -/
  | needsArguments (factory : String) (cause : Fault)
  | malformedRuleString (spec : String) (defect : SpecDefect) (position : Nat)
  | validationFailed (errors : List (String × List Value))
  | call (fault : CallFault)
  /-- A text or bytes that denote no floating-point number. -/
  | noDecimal (text : Value)
  | notDecimal (typeName : String)
  /-- A text or bytes that denote no whole number. -/
  | noInteger (text : Value)
  | notInteger (typeName : String)
  | tooManyDigits (count : Nat)
  | unprintable
  | nanToInteger
  | infinityToInteger
  | integerToFloat
  | integerToCode
  | codeOutOfRange
  | incomparable (comparison : Comparison) (left right : String)
  | dayWithTime
  | offsetMismatch
  | notIterable (typeName : String)
  | unhashable (typeName : String)
  | missingKey (key : Value)
  | noMember (typeName member : String)
  | noExport (name : String)
  | notSubscriptable (typeName : String)
  | wrongIndex (typeName : String)
  | noItemAssignment (typeName : String)
  | indexOutOfRange (typeName : String)
  | positionOutOfRange (position : Nat)
  | unsupportedFormat (typeName : String)
  | template (fault : TemplateFault)
  | pattern (fault : Pattern.PatternFault)
  | repeatedDirective
  | notAFormat (typeName : String)
  | notALevel (value : Value)
  | notInList
  | notImplemented
  | notSerializable (typeName : String)
  | integerTooWide
  | keyNotText
  /-- A fault that a caller's own function raises, with its text. -/
  | raised (family : Family) (text : String)
  deriving Inhabited

/-- A fault, or a result. -/
abbrev Outcome (α : Type) := Except Fault α

theorem Outcome.bind_ok {α β : Type} {outcome : Outcome α} {next : α → Outcome β} {b : β}
    (given : outcome >>= next = .ok b) : ∃ a, outcome = .ok a ∧ next a = .ok b := by
  cases outcome with
  | error fault => cases given
  | ok a => exact ⟨a, rfl, given⟩

theorem Outcome.map_ok {α β : Type} {outcome : Outcome α} {f : α → β} {b : β}
    (given : outcome.map f = .ok b) : ∃ a, outcome = .ok a ∧ f a = b := by
  cases outcome with
  | error fault => cases given
  | ok a => exact ⟨a, rfl, Except.ok.inj given⟩

/-- What comes out of several steps that all succeed is what each has given. -/
theorem Outcome.mapM_ok {α β : Type} {step : α → Outcome β} {as : List α} {bs : List β}
    (ran : as.mapM step = .ok bs) {b : β} (member : b ∈ bs) : ∃ a ∈ as, step a = .ok b := by
  induction as generalizing bs with
  | nil =>
      obtain rfl := Except.ok.inj ran
      cases member
  | cons a rest ih =>
      rw [List.mapM_cons] at ran
      obtain ⟨first, given, ran⟩ := Outcome.bind_ok ran
      obtain ⟨others, later, ran⟩ := Outcome.bind_ok ran
      obtain rfl := Except.ok.inj ran
      rcases List.mem_cons.mp member with rfl | inRest
      · exact ⟨a, List.mem_cons_self, given⟩
      · obtain ⟨a', inside, given'⟩ := ih later inRest
        exact ⟨a', List.mem_cons_of_mem _ inside, given'⟩

/-- The first characters of a text. -/
def shortened (count : Nat) (s : String) : String := String.ofList (s.toList.take count)

/-- The printed form of a value that is known to have one. -/
def Value.printed (value : Value) : String := value.printed?.getD ""

/-- The plural ending of a count. -/
def pluralEnding (count : Nat) : String := if count = 1 then "" else "s"

/-- The wording of a fault in a call. -/
def CallFault.message : CallFault → String
  | .tooMany callee least most given =>
    let taken := if least = most then toString most else s!"from {least} to {most}"
    s!"{callee}() takes {taken} positional argument" ++ pluralEnding most ++
      s!" but {given} " ++ (if given = 1 then "was" else "were") ++ " given"
  | .missing callee parameter =>
    s!"{callee}() missing 1 required positional argument: '{parameter}'"
  | .none className => s!"{className}() takes no arguments"
  | .abstract className =>
    s!"Can't instantiate abstract class {className} with abstract method is_valid"
  | .repeated callee parameter => s!"{callee}() got multiple values for argument '{parameter}'"

/-- A character in a message, by its number unless it is a visible ASCII character. -/
def shownCode (c : Char) : String :=
  if 32 < c.toNat && c.toNat < 127 then String.ofList [c]
  else "\\x" ++ String.ofList (Nat.toDigits 16 c.toNat)

/-- The wording of a fault in a template. -/
def TemplateFault.message : TemplateFault → String
  | .singleOpen => "Single '\x7b' encountered in format string"
  | .singleClose => "Single '\x7d' encountered in format string"
  | .openInName => "unexpected '\x7b' in field name"
  | .nameNotClosed => "expected '\x7d' before end of string"
  | .conversionMissing => "end of string while looking for conversion specifier"
  | .colonExpected => "expected ':' after conversion specifier"
  | .specNotClosed => "unmatched '\x7b' in format spec"
  | .unknownConversion c => "Unknown conversion specifier " ++ shownCode c
  | .positional => "Format string contains positional fields"
  | .emptyAttribute => "Empty attribute in format string"
  | .bracketNotClosed => "Missing ']' in format string"
  | .badAfterBracket => "Only '.' or '[' may follow ']' in format field specifier"
  | .tooManyDigits => "Too many decimal digits in format string"
  | .tooDeep => "Max string recursion exceeded"
  | .badSpec spec typeName => s!"Invalid format specifier '{spec}' for object of type '{typeName}'"
  | .precisionMissing => "Format specifier missing precision"
  | .commaAndUnderscore => "Cannot specify both ',' and '_'."
  | .separatorWith separator code =>
    s!"Cannot specify '{separator}' with '" ++ shownCode code ++ "'."
  | .unknownCode code typeName =>
    "Unknown format code '" ++ shownCode code ++ s!"' for object of type '{typeName}'"
  | .signOnText => "Sign not allowed in string format specifier"
  | .spaceOnText => "Space not allowed in string format specifier"
  | .zeroOnText => "Negative zero coercion (z) not allowed in string format specifier"
  | .alternateOnText => "Alternate form (#) not allowed in string format specifier"
  | .equalsOnText => "'=' alignment not allowed in string format specifier"
  | .precisionOnWhole => "Precision not allowed in integer format specifier"
  | .zeroOnWhole => "Negative zero coercion (z) not allowed in integer format specifier"
  | .signOnCharacter => "Sign not allowed with integer format specifier 'c'"
  | .alternateOnCharacter => "Alternate form (#) not allowed with integer format specifier 'c'"
  | .precisionTooBig => "precision too big"

/-- The wording of a defect of an entry. -/
def RuleDefect.message : RuleDefect → String
  | .instanceArguments identifier =>
    "Rule `" ++ identifier ++ "` is registered as an instance and takes no arguments."
  | .notARule identifier typeName =>
    "Factory for `" ++ identifier ++ "` returned " ++ typeName ++ ", expected an instance of Rule."
  | .emptyIdentifier => "Rule identifier must not be empty."
  | .nameless printed => printed ++ " has no name; register it with an explicit identifier."
  | .foreign typeName => "Rule must implement Rule, got " ++ typeName ++ "."
  | .abstractClass className => "Rule class " ++ className ++ " must be instantiable."
  | .notAnEntry typeName =>
    "Rule must be a Rule subclass, instance or factory, got " ++ typeName ++ "."
  | .notAMapping typeName =>
    "Rules must be a mapping of attribute to rules, got " ++ typeName ++ "."
  | .notCallable typeName =>
    "Rule must implement `Rule` or be callable, got " ++ typeName ++ "."

/-- The wording of a defect of a rule string. -/
def SpecDefect.message : SpecDefect → String
  | .emptyRule => "empty rule"
  | .missingIdentifier => "missing rule identifier"

/-- The list of the errors of attributes, one line for each message. -/
def errorLines (errors : List (String × List Value)) : List String :=
  errors.flatMap fun (field, messages) =>
    messages.map fun message => s!"  - {field}: " ++ message.text?.getD ""

/-- How the failure of a validation is reported. -/
def failureText (errors : List (String × List Value)) : String :=
  if errors.isEmpty then "Validation failed"
  else "Validation failed:\n" ++ "\n".intercalate (errorLines errors)

/-- The wording of a fault. -/
def Fault.message : Fault → String
  | .unknownRule identifier =>
    "Rule identified by `" ++ identifier ++ "` could not be loaded. It must be registered first."
  | .invalidRule defect => defect.message
  | .buildFailed identifier arguments cause =>
    "Rule `" ++ identifier ++ "` could not be built with arguments " ++
      (Value.list arguments).printed ++ ": " ++ cause.message
  | .needsArguments factory _ =>
    factory ++ " must be instantiable without arguments to derive its identifier."
  | .malformedRuleString spec defect position =>
    "Malformed rule string " ++ Text.quoted spec ++ s!" (token {position}): " ++ defect.message
  | .validationFailed errors => failureText errors
  | .call fault => fault.message
  | .noDecimal text => "could not convert string to float: " ++ text.printed
  | .notDecimal typeName =>
    s!"float() argument must be a string or a real number, not '{typeName}'"
  | .noInteger text =>
    "invalid literal for int() with base 10: " ++ shortened 200 text.printed
  | .notInteger typeName =>
    s!"int() argument must be a string, a bytes-like object or a real number, not '{typeName}'"
  | .tooManyDigits count =>
    s!"Exceeds the limit (4300 digits) for integer string conversion: value has {count} digits; " ++
      "use sys.set_int_max_str_digits() to increase the limit"
  | .unprintable =>
    "Exceeds the limit (4300 digits) for integer string conversion; " ++
      "use sys.set_int_max_str_digits() to increase the limit"
  | .nanToInteger => "cannot convert float NaN to integer"
  | .infinityToInteger => "cannot convert float infinity to integer"
  | .integerToFloat => "int too large to convert to float"
  | .integerToCode => "Python int too large to convert to C long"
  | .codeOutOfRange => "%c arg not in range(0x110000)"
  | .incomparable comparison left right =>
    "'" ++ comparison.symbol ++ "' not supported between instances of " ++
      s!"'{left}' and '{right}'"
  | .dayWithTime => "can't compare datetime.datetime to datetime.date"
  | .offsetMismatch => "can't compare offset-naive and offset-aware datetimes"
  | .notIterable typeName => s!"'{typeName}' object is not iterable"
  | .unhashable typeName => s!"unhashable type: '{typeName}'"
  | .missingKey key => key.printed
  | .noMember typeName member => s!"'{typeName}' object has no attribute '{member}'"
  | .noExport name => s!"module 'validex' has no attribute '{name}'"
  | .notSubscriptable typeName => s!"'{typeName}' object is not subscriptable"
  | .wrongIndex typeName =>
    if typeName = "str" then "string indices must be integers, not 'str'"
    else if typeName = "bytes" then "byte indices must be integers or slices, not str"
    else s!"{typeName} indices must be integers or slices, not str"
  | .noItemAssignment typeName => s!"'{typeName}' object does not support item assignment"
  | .indexOutOfRange typeName =>
    (if typeName = "str" then "string"
     else if typeName = "bytes" then "" else typeName) ++
      (if typeName = "bytes" then "index out of range" else " index out of range")
  | .positionOutOfRange position =>
    s!"Replacement index {position} out of range for positional args tuple"
  | .unsupportedFormat typeName => s!"unsupported format string passed to {typeName}.__format__"
  | .template fault => fault.message
  | .pattern .malformed => "malformed pattern"
  | .pattern .repetitionTooLarge => "the repetition number is too large"
  | .pattern .incompatibleFlags => "ASCII and UNICODE flags are incompatible"
  | .pattern (.tooManyDigits count) => (Fault.tooManyDigits count).message
  | .repeatedDirective => "repeated directive"
  | .notAFormat typeName => "strptime() argument 2 must be str, not " ++ typeName
  | .notALevel value => value.printed ++ " is not a valid LogLevel"
  | .notInList => "list.remove(x): x not in list"
  | .notImplemented => ""
  | .notSerializable typeName => "Type is not JSON serializable: " ++ typeName
  | .integerTooWide => "Integer exceeds 64-bit range"
  | .keyNotText => "Dict key must be str"
  | .raised .key text => Text.quoted text
  | .raised _ text => text

/-- The family of a fault. -/
def Fault.family : Fault → Family
  | .unknownRule _ => .unknownRule
  | .invalidRule _ | .buildFailed .. | .needsArguments .. => .invalidRule
  | .malformedRuleString .. => .malformedRuleString
  | .validationFailed _ => .validation
  | .call _ | .notDecimal _ | .notInteger _ | .incomparable .. | .dayWithTime | .offsetMismatch
  | .notIterable _ | .unhashable _ | .notSubscriptable _ | .wrongIndex _ | .noItemAssignment _
  | .unsupportedFormat _ | .notAFormat _ | .notSerializable _ | .integerTooWide
  | .keyNotText => .type
  | .noDecimal _ | .noInteger _ | .tooManyDigits _ | .unprintable | .nanToInteger
  | .template _ | .notALevel _ | .notInList => .value
  | .pattern .malformed | .repeatedDirective => .pattern
  | .pattern .repetitionTooLarge => .overflow
  | .pattern .incompatibleFlags | .pattern (.tooManyDigits _) => .value
  | .infinityToInteger | .integerToFloat | .integerToCode | .codeOutOfRange => .overflow
  | .missingKey _ => .key
  | .noMember .. | .noExport _ => .member
  | .indexOutOfRange _ | .positionOutOfRange _ => .index
  | .notImplemented => .notImplemented
  | .raised family _ => family

/-- Whether a fault is a value error, or a special case of one. -/
def Fault.isValueFault (fault : Fault) : Bool :=
  match fault.family with
  | .value => true
  | .other _ ofValue => ofValue
  | _ => false

/-- Whether a fault is a type error. -/
def Fault.isTypeFault (fault : Fault) : Bool := fault.family == .type

/-- Whether a fault means that arguments were rejected. -/
def Fault.isRejection (fault : Fault) : Bool := fault.isTypeFault || fault.isValueFault

/-- The cause that a fault wraps. -/
def Fault.cause? : Fault → Option Fault
  | .buildFailed _ _ cause | .needsArguments _ cause => some cause
  | _ => none

/-- The printed form of a value, or the fault of having none. -/
def Value.print (value : Value) : Outcome String :=
  match value.printed? with
  | some text => .ok text
  | Option.none => .error .unprintable

/-- The plain form of a value, or the fault of having none. -/
def Value.plain (value : Value) : Outcome String :=
  match value.text? with
  | some text => .ok text
  | Option.none => .error .unprintable

end FieldRules
