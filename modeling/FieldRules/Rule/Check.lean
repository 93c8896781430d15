import FieldRules.Calendar.DateReader
import FieldRules.Format.Url
import FieldRules.Format.Uuid
import FieldRules.Json.Reader
import FieldRules.Pattern.Matcher
import FieldRules.Rule.Basic
import FieldRules.Value.Convert

/-! # Checking values

What each kind of rule asks of a value.  Most rules answer without giving a reason; those that
give one record it as a violation code.
-/

namespace FieldRules

open Text

/-- The measure of a value: a number is its own, and texts, lists and dictionaries have their
length. -/
def Value.measure? : Value → Option Number
  | .int n => some (.whole n)
  | .float x => some (.binary x)
  | .str s => some (.whole s.length)
  | .list items => some (.whole items.length)
  | .dict entries => some (.whole entries.length)
  | _ => Option.none

/-- The spellings of truth and falsehood. -/
def booleanSpellings : List Value :=
  [.bool true, .bool false, .int 1, .int 0, .str "1", .str "0", .str "true", .str "false",
    .str "yes", .str "no"]

namespace Report

/-- Whether something is there: not null, not blank text, and no empty collection. -/
def ofPresence : Value → Report
  | .none | .missing => decided false
  | .str s => decided !(strip s.toList).isEmpty
  | .list items | .tuple items | .set items => decided !items.isEmpty
  | .dict entries => decided !entries.isEmpty
  | _ => decided true

/-- Whether a value is a text that a test accepts. -/
def ofText (test : String → Bool) : Value → Report
  | .str s => decided (test s)
  | _ => decided false

/-- Whether the measure of a value passes a test. -/
def ofMeasure (test : Number → Bool) (value : Value) : Report :=
  decided ((value.measure?.map test).getD false)

/-- Whether a text has a length within bounds. -/
def ofLength (least most : Int) : Value → Report
  | .str s =>
    if s.length < least then violated "too_short"
    else if most < s.length then violated "too_long"
    else decided true
  | _ => violated "type"

/-- Whether a value is a text that begins with a match of a pattern. -/
def ofPattern (source : PatternSource) : Value → Report
  | .str s =>
    match source with
    | .pattern pattern => decided (pattern.matchesStart s)
    | .other value => faulted (.noMember value.qualifiedTypeName "match")
  | _ => decided false

/-- Whether a value is a number or denotes one. -/
def ofNumeric : Value → Report
  | .int _ | .float _ => decided true
  | .str s => decided (Number.readDecimal? s.toList).isSome
  | _ => decided false

/-- Whether a value is a whole number or denotes one. -/
def ofInteger : Value → Report
  | .int _ => decided true
  | .str s =>
    match Number.readInteger s.toList with
    | .ok _ => decided true
    | .error _ => decided false
  | _ => decided false

/-- Whether a value is a day or a time, or gives one by a format. -/
def ofDate (format : Value) : Value → Report
  | .date _ | .datetime _ => decided true
  | .str s =>
    match format with
    | .str format =>
      match Calendar.readTime format s with
      | .ok (some _) => decided true
      | .ok Option.none | .error .badDirective => violated "format"
      | .error .repeatedDirective => faulted .repeatedDirective
    | .none => faulted (.notAFormat "None")
    | format => faulted (.notAFormat format.qualifiedTypeName)
  | _ => violated "type"

/-- Whether the text of a value is an identifier, of a version if one is asked for. -/
def ofUuid (version : Option Int) (value : Value) : Report :=
  if value.isEmpty then violated "format"
  else match value.text?.bind Format.Uuid.read? with
    | none => violated "format"
    | some n =>
      match version with
      | none => decided true
      | some asked =>
        if asked = 0 || (Format.Uuid.version? n).map Int.ofNat = some asked then decided true
        else violated "version"

/-- Whether a value is a structure or denotes one in JSON. -/
def ofJson : Value → Report
  | .dict _ | .list _ => decided true
  | .str s =>
    match Json.read s with
    | .ok _ => decided true
    | .error .malformed => decided false
    | .error (.tooManyDigits count) => faulted (.tooManyDigits count)
  | _ => decided false

/-- Whether a value is a list. -/
def ofArray : Value → Report
  | .list _ => decided true
  | _ => decided false

end Report

/-- What a rule of a kind finds in a value. -/
def RuleKind.report : RuleKind → Value → Report
  | .sometimes, _ => .decided true
  | .required, value => .ofPresence value
  | .email, value =>
    match value with
    | .str s => if Format.Email.accepts s then .decided true else .violated "format"
    | _ => .violated "type"
  | .url, value => .ofText Format.Url.accepts value
  | .min bound, value => .ofMeasure (bound.le ·) value
  | .max bound, value => .ofMeasure (·.le bound) value
  | .length least most, value => .ofLength least most value
  | .regex source, value => .ofPattern source value
  | .within allowed, value => .decided (value.isAmong allowed)
  | .outside disallowed, value => .decided !(value.isAmong disallowed)
  | .numeric, value => .ofNumeric value
  | .integer, value => .ofInteger value
  | .alpha, value => .ofText (fun s => s != "" && s.toList.all isLetter) value
  | .alphaNumeric, value => .ofText (fun s => s != "" && s.toList.all isAlphanumeric) value
  | .date format, value => .ofDate format value
  | .uuid version, value => .ofUuid version value
  | .json, value => .ofJson value
  | .array, value => .ofArray value
  | .boolean, value => .decided (value.isAmong booleanSpellings)
  | .wrapped valid _ codes, _ =>
    if valid then .decided true
    else { codes := codes.map .str, result := .ok false }
  | .custom rule, value => rule.check value

/-- Checks a value: the codes of earlier checks give way to those of this one. -/
def Rule.check (rule : Rule) (value : Value) : Outcome Bool × Rule :=
  let report := rule.kind.report value
  (report.result, { rule with violations := report.codes })

end FieldRules
