import FieldRules.Json.Writer
import FieldRules.Keyed
import FieldRules.Rule.Printed

/-! # Details of messages

The details of a message can be any objects: values, rules, and collections that hold rules. In JSON
an object of a class that is declared by its fields is written with the attributes that are its own,
except those whose names begin with an underscore; an object of any other class is written in its
printed form.
-/

namespace FieldRules

/-- An object among the details of a message, as far as it can be seen in what is written. -/
inductive Detail where
  | value (v : Value)
  | list (items : List Detail)
  | tuple (items : List Detail)
  | set (items : List Detail)
  | dict (entries : List (Detail × Detail))
  /-- An object of a class that is declared by its fields: its printed form, none if it has no text,
  and its own attributes. -/
  | fielded (printed? : Option String) (attributes : List (String × Detail))
  /-- An object of any other class, with its printed form. -/
  | object (typeName : String) (printed? : Option String)
  deriving Inhabited

namespace Detail

/-- A text. -/
@[match_pattern] abbrev str (s : String) : Detail := .value (.str s)

/-- The dictionary of named objects. -/
def named (entries : Keyed Detail) : Detail :=
  .dict (entries.map fun (name, detail) => (.str name, detail))

instance : Coe Value Detail := ⟨.value⟩

instance : Coe (Keyed Value) (Keyed Detail) :=
  ⟨fun entries => entries.map fun (name, v) => (name, .value v)⟩

/-! ## Printing -/

mutual

/-- The printed form of an object. -/
def printed? : Detail → Option String
  | .value v => v.printed?
  | .list items => (printedItems? items).map listText
  | .tuple items => (printedItems? items).map tupleText
  | .set items => (printedItems? items).map setText
  | .dict entries => (printedEntries? entries).map dictText
  | .fielded text? _ | .object _ text? => text?

/-- The printed forms of items. -/
def printedItems? : List Detail → Option (List String)
  | [] => some []
  | item :: items =>
    match printed? item, printedItems? items with
    | some text, some texts => some (text :: texts)
    | _, _ => none

/-- The printed forms of the entries of a dictionary. -/
def printedEntries? : List (Detail × Detail) → Option (List String)
  | [] => some []
  | (key, detail) :: entries =>
    match printed? key, printed? detail, printedEntries? entries with
    | some keyText, some text, some texts => some ((keyText ++ ": " ++ text) :: texts)
    | _, _, _ => none

end

/-- The plain form of an object: only values have one that is not the printed form. -/
def plain : Detail → Outcome String
  | .value v => v.plain
  | detail =>
    match detail.printed? with
    | some text => .ok text
    | none => .error .unprintable

/-! ## Writing JSON -/

/-- Writes an object that JSON does not know in its printed form. -/
def foreignText (typeName : String) : Option String → Outcome String
  | some text => .ok (Json.stringText text)
  | none => .error (.notSerializable typeName)

/-- Whether an attribute is kept out of what is written. -/
def isHidden (name : String) : Bool := name.toList.head? = some '_'

mutual

/-- An object in JSON. -/
def write : Detail → Outcome String
  | .value v => Json.write Json.printedString v
  | .list items | .tuple items => do return Json.arrayText (← writeItems items)
  | .set items => foreignText "set" ((printedItems? items).map setText)
  | .dict entries => do return Json.objectText (← writeEntries entries)
  | .fielded _ attributes => do return Json.objectText (← writeAttributes attributes)
  | .object typeName text? => foreignText typeName text?

/-- Items in JSON. -/
def writeItems : List Detail → Outcome (List String)
  | [] => .ok []
  | item :: items => do
    let text ← write item
    return text :: (← writeItems items)

/-- The entries of a dictionary in JSON. -/
def writeEntries : List (Detail × Detail) → Outcome (List (String × String))
  | [] => .ok []
  | (key, detail) :: entries =>
    match key with
    | .str key => do
      let text ← write detail
      return (key, text) :: (← writeEntries entries)
    | _ => .error .keyNotText

/-- The attributes of an object in JSON. -/
def writeAttributes : List (String × Detail) → Outcome (List (String × String))
  | [] => .ok []
  | (name, detail) :: attributes =>
    if isHidden name then writeAttributes attributes
    else do
      let text ← write detail
      return (name, text) :: (← writeAttributes attributes)

end

end Detail

/-! ## Rules among details -/

/-- What can be set on a rule itself; before that it has what its class has. -/
inductive RuleAttribute where
  | name
  | template
  | violations
  | skip
  | emptyAllowed
  deriving DecidableEq, Repr

/-- An attribute that has been set on a rule. -/
def RuleAttribute.entry (rule : Rule) : RuleAttribute → String × Detail
  | .name => ("name", .value ((rule.givenName.map Value.str).getD .none))
  | .template => ("message", .str rule.template)
  | .violations => ("violations", .value (.list rule.violations))
  | .skip => ("_skip", .value (.bool rule.skip))
  | .emptyAllowed => ("_empty_allowed", .value rule.emptyAllowed)

/-- The pattern of a rule as an object. -/
def PatternSource.detail : PatternSource → Detail
  | .pattern p => .object "re.Pattern" (some p.printed)
  | .other value => value

/-- The fields of a rule, if its class is declared by them. -/
def RuleKind.fields? : RuleKind → Option (List (String × Detail))
  | .min bound => some [("minimum", .value (.ofNumber bound))]
  | .max bound => some [("maximum", .value (.ofNumber bound))]
  | .length least most =>
    some [("min_length", .value (.int least)), ("max_length", .value (.int most))]
  | .regex source => some [("pattern", source.detail)]
  | .date format => some [("format", .value format)]
  | .uuid version => some [("version", .value ((version.map Value.int).getD .none))]
  | .within _ | .outside _ | .wrapped .. | .custom _ => none
  | _ => some []

/-- A rule as a detail, when some attributes have been set on it, in this order. -/
def Detail.ofRule (rule : Rule) (assigned : List RuleAttribute) : Detail :=
  let text? := rule.kind.print.toOption
  match rule.kind.fields? with
  | some fields => .fielded text? (fields ++ assigned.map (·.entry rule))
  | none => .object rule.kind.className text?

end FieldRules
