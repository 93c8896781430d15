import FieldRules.Text.Printable

/-! # Quoted text

A text is written between single quotes, or between double quotes when it holds single quotes
and no double ones.  Inside, the backslash and the enclosing quote are escaped, the tab, the
line feed and the carriage return have letters, and every other character that is not printed
as it is becomes a number in lower-case hexadecimal: two digits after `x`, four after `u`, eight
after `U`.  Bytes are written in the same way behind a `b`, with numbers for all but the
printable ASCII characters.
-/

namespace FieldRules.Text

/-- The lower-case hexadecimal digit of a number below sixteen. -/
def hexDigit (n : Nat) : Char :=
  if n < 10 then Char.ofNat (48 + n) else Char.ofNat (87 + n)

/-- The last `width` hexadecimal digits of a number. -/
def hexDigits : (width : Nat) → Nat → List Char
  | 0, _ => []
  | width + 1, n => hexDigits width (n / 16) ++ [hexDigit (n % 16)]

/-- The quote that encloses a text. -/
def enclosingQuote (cs : List Char) : Char :=
  if cs.contains '\'' && !cs.contains '"' then '"' else '\''

/-- One character inside quotes. -/
def escaped (quote c : Char) : List Char :=
  if c = quote || c = '\\' then ['\\', c]
  else if c = '\t' then ['\\', 't']
  else if c = '\n' then ['\\', 'n']
  else if c = '\r' then ['\\', 'r']
  else if isPrintable c then [c]
  else if c.toNat < 0x100 then '\\' :: 'x' :: hexDigits 2 c.toNat
  else if c.toNat < 0x10000 then '\\' :: 'u' :: hexDigits 4 c.toNat
  else '\\' :: 'U' :: hexDigits 8 c.toNat

/-- A text in quotes. -/
def quotedChars (cs : List Char) : List Char :=
  let quote := enclosingQuote cs
  quote :: cs.flatMap (escaped quote) ++ [quote]

/-- A string in quotes. -/
def quoted (s : String) : String := String.ofList (quotedChars s.toList)

/-- One byte inside quotes. -/
def escapedByte (quote : Char) (byte : UInt8) : List Char :=
  let c := Char.ofNat byte.toNat
  if c.toNat < 0x80 then escaped quote c else '\\' :: 'x' :: hexDigits 2 byte.toNat

/-- Bytes in quotes. -/
def quotedBytes (bytes : List UInt8) : String :=
  let quote := enclosingQuote (bytes.map fun byte => Char.ofNat byte.toNat)
  String.ofList ('b' :: quote :: bytes.flatMap (escapedByte quote) ++ [quote])

end FieldRules.Text
