import FieldRules.Fault

/-! # Hosts of templates

The members of a value are those that the host of the program gives to its type, functions and
types among them, and a template may go on from one to the next.  What it then comes to need not be
a value that rules know: it is an object of the host.  A host says what the members of values and
objects are, and what the items, texts and layouts of its objects are.
-/

namespace FieldRules.Template

/-- What a template comes to on its way: a value, or an object of the host by its number. -/
inductive Thing where
  | value (value : Value)
  | object (id : Nat)

/-- What values and objects have from the host of the program.  Everything may fail. -/
structure Host where
  /-- The member of a value or an object under a name. -/
  member : Thing → String → Outcome Thing
  /-- The item of an object under a key, a whole number or a text. -/
  item : (id : Nat) → (key : Value) → Outcome Thing
  /-- The printed form of an object. -/
  print : (id : Nat) → Outcome String
  /-- The plain form of an object. -/
  plain : (id : Nat) → Outcome String
  /-- An object in a field with a layout, be it an empty one. -/
  layOut : (id : Nat) → (spec : List Char) → Outcome (List Char)

namespace Host

/-- The part that a number or a day has under a name. -/
def part? (name : String) : Value → Option Value
  | .bool b => number name (if b then 1 else 0)
  | .int n => number name n
  | .float x =>
    if name = "real" then some (.float x)
    else if name = "imag" then some (.float (.finite false .nil))
    else none
  | .date d => day name d
  | .datetime t =>
    if name = "hour" then some (.int t.hour)
    else if name = "minute" then some (.int t.minute)
    else if name = "second" then some (.int t.second)
    else if name = "microsecond" then some (.int t.microsecond)
    else day name t.date
  | _ => none
where
  /-- The parts of a whole number. -/
  number (name : String) (n : Int) : Option Value :=
    if name = "real" || name = "numerator" then some (.int n)
    else if name = "imag" then some (.int 0)
    else if name = "denominator" then some (.int 1)
    else none
  /-- The parts of a day. -/
  day (name : String) (d : Calendar.Date) : Option Value :=
    if name = "year" then some (.int d.year)
    else if name = "month" then some (.int d.month)
    else if name = "day" then some (.int d.day)
    else none

/-- A host without objects of its own, in which just numbers and days have members: their parts. -/
def bare : Host where
  member
    | .value value, name =>
      match part? name value with
      | some part => .ok (.value part)
      | none => .error (.noMember value.qualifiedTypeName name)
    | .object _, name => .error (.noMember "object" name)
  item _ _ := .error (.notSubscriptable "object")
  print _ := .ok "<object>"
  plain _ := .ok "<object>"
  layOut _ _ := .error (.unsupportedFormat "object")

instance : Inhabited Host := ⟨bare⟩

/-- The printed form of a value or an object. -/
def printOf (host : Host) : Thing → Outcome String
  | .value value => value.print
  | .object id => host.print id

/-- The plain form of a value or an object. -/
def plainOf (host : Host) : Thing → Outcome String
  | .value value => value.plain
  | .object id => host.plain id

end Host

end FieldRules.Template
