import FieldRules.Calendar.DateWriter
import FieldRules.Number.Rounded
import FieldRules.Template.Syntax
import FieldRules.Value.Convert

/-! # Layouts

How values are laid out in a field: fill and alignment, sign, width, separators between groups of
digits, precision, and a code for the kind of number.
-/

namespace FieldRules.Template

open FieldRules.Number FieldRules.Text

/-- Where a text stands in a wider field. -/
inductive Alignment where
  | left
  | right
  | center
  /-- Numbers on the right, with the sign on the left. -/
  | split
  deriving DecidableEq, Repr

/-- The alignment of a mark. -/
def Alignment.ofMark? : Char → Option Alignment
  | '<' => some .left
  | '>' => some .right
  | '^' => some .center
  | '=' => some .split
  | _ => none

/-- A layout. -/
structure Layout where
  fill : Char := ' '
  alignment : Alignment
  /-- What stands before numbers: `+`, a blank, or `-` for negative ones only. -/
  sign : Option Char := none
  /-- Whether a zero loses its sign. -/
  clearZero : Bool := false
  alternate : Bool := false
  width : Option Nat := none
  /-- What stands between groups of digits. -/
  separator : Option Char := none
  precision : Option Nat := none
  code : Option Char := none
  deriving DecidableEq, Repr

/-- A number at the front of a layout, if there is one. -/
def takeNumber (cs : List Char) : Except TemplateFault (Option Nat × List Char) := do
  return (← number? (cs.takeWhile isDigit), cs.dropWhile isDigit)

/-- Takes one character off the front if it is the given one. -/
def takeMark (c : Char) : List Char → Bool × List Char
  | d :: rest => if c = d then (true, rest) else (false, d :: rest)
  | [] => (false, [])

/-- The fill and the alignment at the front of a layout. -/
def takeAlignment (standard : Alignment) (cs : List Char) :
    Option Char × Option Alignment × Alignment × List Char :=
  match cs with
  | [] => (none, none, standard, [])
  | a :: rest =>
    match rest.head?.bind Alignment.ofMark? with
    | some alignment => (some a, some alignment, alignment, rest.drop 1)
    | none =>
      match Alignment.ofMark? a with
      | some alignment => (none, some alignment, alignment, rest)
      | none => (none, none, standard, cs)

/-- A sign at the front of a layout. -/
def takeSignMark : List Char → Option Char × List Char
  | c :: rest => if c = '+' || c = '-' || c = ' ' then (some c, rest) else (none, c :: rest)
  | [] => (none, [])

/-- The separator at the front of a layout. -/
def takeSeparator (cs : List Char) : Except TemplateFault (Option Char × List Char) :=
  let (comma, cs) := takeMark ',' cs
  let (underscore, cs) := takeMark '_' cs
  if underscore && (comma || cs.head? = some ',') then .error .commaAndUnderscore
  else .ok (if comma then some ',' else if underscore then some '_' else none, cs)

/-- The precision at the front of a layout. -/
def takePrecision (cs : List Char) : Except TemplateFault (Option Nat × List Char) :=
  match takeMark '.' cs with
  | (false, cs) => .ok (none, cs)
  | (true, cs) => do
    match ← takeNumber cs with
    | (none, _) => .error .precisionMissing
    | found => return found

/-- Whether digits may be grouped with a separator under a code; no code is as good as a decimal
one. -/
def allowsSeparator (separator : Char) : Option Char → Bool
  | none => true
  | some code =>
    "deEfFgG%".toList.contains code || (separator == '_' && "boxX".toList.contains code)

/-- Reads a layout for values of a type, given the code and the alignment of that type. -/
def Layout.read (typeName : String) (standardCode : Option Char) (standard : Alignment)
    (spec : List Char) : Except TemplateFault Layout := do
  let (fill, asked, alignment, cs) := takeAlignment standard spec
  let (sign, cs) := takeSignMark cs
  let (clearZero, cs) := takeMark 'z' cs
  let (alternate, cs) := takeMark '#' cs
  let (zeros, cs) := if fill.isNone then takeMark '0' cs else (false, cs)
  let alignment := if zeros && asked.isNone && standard = .right then .split else alignment
  let (width, cs) ← takeNumber cs
  let (separator, cs) ← takeSeparator cs
  let (precision, cs) ← takePrecision cs
  let code ← match cs with
    | [] => pure standardCode
    | [c] => pure (some c)
    | _ => .error (.badSpec (String.ofList spec) typeName)
  match separator with
  | some mark =>
    if !allowsSeparator mark code then .error (.separatorWith mark (code.getD 's'))
  | none => pure ()
  return {
    fill := if zeros then '0' else fill.getD ' '
    alignment, sign, clearZero, alternate, width, separator, precision, code }

namespace Layout

/-- The fill on the left and on the right of a text. -/
def margins (layout : Layout) (length : Nat) : List Char × List Char :=
  let missing := layout.width.getD 0 - length
  let fill (count : Nat) := List.replicate count layout.fill
  match layout.alignment with
  | .left | .split => ([], fill missing)
  | .right => (fill missing, [])
  | .center => (fill (missing / 2), fill (missing - missing / 2))

/-- A text laid out as such. -/
def ofText (layout : Layout) (cs : List Char) : Except TemplateFault (List Char) :=
  if layout.sign = some ' ' then .error .spaceOnText
  else if layout.sign.isSome then .error .signOnText
  else if layout.clearZero then .error .zeroOnText
  else if layout.alternate then .error .alternateOnText
  else if layout.alignment = .split then .error .equalsOnText
  else
    let kept := match layout.precision with
      | some count => cs.take count
      | none => cs
    let (before, after) := layout.margins kept.length
    .ok (before ++ kept ++ after)

/-- Digits from the last on, in groups, with zeros up to a width. -/
def groupedReverse (size : Nat) (separator : Char) :
    (fuel : Nat) → (digits : List Char) → (least : Int) → List Char
  | 0, digits, _ => digits
  | fuel + 1, digits, least =>
    let count := min size (max (max digits.length least.toNat) 1)
    let group := digits.take count ++ List.replicate (count - digits.length) '0'
    let rest := digits.drop count
    let least := least - count
    if rest.isEmpty && least ≤ 0 then group
    else group ++ separator :: groupedReverse size separator fuel rest (least - 1)

/-- The number of digits of a group. -/
def groupSize (layout : Layout) : Nat :=
  if (layout.code.map "boxX".toList.contains).getD false then 4 else 3

/-- Digits in groups, with zeros up to a width. -/
def grouped (layout : Layout) (digits : List Char) (least : Int) : List Char :=
  if digits.isEmpty then []
  else match layout.separator with
    | none => List.replicate (least.toNat - digits.length) '0' ++ digits
    | some separator =>
      (groupedReverse layout.groupSize separator (digits.length + least.toNat + 1)
        digits.reverse least).reverse

/-- What stands before a number. -/
def signText (layout : Layout) (negative : Bool) : List Char :=
  if negative then ['-']
  else match layout.sign with
    | some '+' => ['+']
    | some ' ' => [' ']
    | _ => []

/-- A number laid out: its sign, the mark of its base, its digits before the point, and the
rest. -/
def ofNumber (layout : Layout) (negative : Bool) (mark digits rest : List Char) : List Char :=
  let sign := layout.signText negative
  let others := sign.length + mark.length + rest.length
  let least : Int :=
    if layout.fill = '0' && layout.alignment = .split then layout.width.getD 0 - others else 0
  let body := layout.grouped digits least
  match layout.alignment with
  | .split =>
    let missing := layout.width.getD 0 - (others + body.length)
    sign ++ mark ++ List.replicate missing layout.fill ++ body ++ rest
  | _ =>
    let (before, after) := layout.margins (others + body.length)
    before ++ sign ++ mark ++ body ++ rest ++ after

/-- A whole number as a character. -/
def ofCode (layout : Layout) (n : Int) : Outcome (List Char) :=
  if layout.sign.isSome then .error (.template .signOnCharacter)
  else if layout.alternate then .error (.template .alternateOnCharacter)
  else if n < -(twoTo 63 : Int) || (twoTo 63 : Int) ≤ n then .error .integerToCode
  else if n < 0 || 0x10ffff < n then .error .codeOutOfRange
  else .ok (layout.ofNumber false [] [] [Char.ofNat n.toNat])

/-- A whole number in a base. -/
def inBase (layout : Layout) (base : Nat) (mark : List Char) (n : Int) : List Char :=
  let cased (cs : List Char) := if layout.code = some 'X' then cs.map Char.toUpper else cs
  layout.ofNumber (n < 0) (if layout.alternate then cased mark else [])
    (cased (Nat.toDigits base n.natAbs)) []

/-- A floating-point number. -/
def ofBinary (layout : Layout) (typeName : String) (x : Binary64) : Outcome (List Char) := do
  let code := layout.code.getD 'r'
  if !"reEfFgGn%".toList.contains code || layout.code = some 'r' then
    .error (.template (.unknownCode code typeName))
  if twoTo 31 ≤ layout.precision.getD 0 then .error (.template .precisionTooBig)
  let places := layout.precision.getD 6
  let style : Style := match code.toLower with
    | 'r' => match layout.precision with
      | some count => .general count true
      | none => .shortest
    | 'e' => .exponent places
    | 'f' | '%' => .fixed places
    | _ => .general places false
  let shown := if code = '%' then x.hundredfold else x
  let (negative, text) := shown.styled layout.alternate layout.clearZero style
  let text := if code.isUpper then text.map Char.toUpper else text
  let text := if code = '%' then text ++ ['%'] else text
  return layout.ofNumber negative [] (text.takeWhile isAsciiDigit) (text.dropWhile isAsciiDigit)

/-- A whole number. -/
def ofWhole (layout : Layout) (typeName : String) (n : Int) : Outcome (List Char) :=
  let code := layout.code.getD 'd'
  if "eEfFgG%".toList.contains code then do
    layout.ofBinary typeName (← binaryOfInteger n)
  else if !"bcdoxXn".toList.contains code then .error (.template (.unknownCode code typeName))
  else if layout.precision.isSome then .error (.template .precisionOnWhole)
  else if layout.clearZero then .error (.template .zeroOnWhole)
  else match code with
    | 'c' => layout.ofCode n
    | 'b' => .ok (layout.inBase 2 ['0', 'b'] n)
    | 'o' => .ok (layout.inBase 8 ['0', 'o'] n)
    | 'x' | 'X' => .ok (layout.inBase 16 ['0', 'x'] n)
    | _ => if n.natAbs < textBound then .ok (layout.inBase 10 [] n) else .error .unprintable

end Layout

/-- The fault of a template, as a fault. -/
def lift {α : Type} : Except TemplateFault α → Outcome α
  | .ok x => .ok x
  | .error fault => .error (.template fault)

/-- The text of a value in a field with a layout. -/
def layOut (spec : List Char) (value : Value) : Outcome (List Char) :=
  if spec.isEmpty then return (← value.plain).toList
  else match value with
    | .str s => lift do
      let layout ← Layout.read "str" (some 's') .left spec
      if layout.code = some 's' then layout.ofText s.toList
      else .error (.unknownCode (layout.code.getD 's') "str")
    | .int n => do (← lift (Layout.read "int" (some 'd') .right spec)).ofWhole "int" n
    | .bool b => do
      (← lift (Layout.read "bool" (some 'd') .right spec)).ofWhole "bool" (if b then 1 else 0)
    | .float x => do (← lift (Layout.read "float" none .right spec)).ofBinary "float" x
    | .date d => .ok ((Calendar.DateTime.formatted { date := d } (String.ofList spec)).toList)
    | .datetime t => .ok ((t.formatted (String.ofList spec)).toList)
    | value => .error (.unsupportedFormat value.qualifiedTypeName)

end FieldRules.Template
