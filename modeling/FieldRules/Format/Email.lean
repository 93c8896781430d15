import FieldRules.Text.Letter
import FieldRules.Text.Numeral
import FieldRules.Text.Pieces

/-! # Email addresses

An address is a local part, an at sign, a domain, a dot, and a top-level domain of two letters at
least, all in ASCII.  One line feed may follow it.
-/

namespace FieldRules.Format

open FieldRules.Text

/-- Takes one line feed off the end of a text. -/
def withoutFinalBreak : List Char → List Char
  | [] => []
  | ['\n'] => []
  | c :: rest => c :: withoutFinalBreak rest

/-- The text before the last separator, and the text after it if there is one. -/
def cutLast (separator : Char) (cs : List Char) : List Char × Option (List Char) :=
  match cut separator cs.reverse with
  | (_, none) => (cs, none)
  | (after, some before) => (before.reverse, some after.reverse)

namespace Email

/-- A letter or digit. -/
def isWordChar (c : Char) : Bool := isAsciiLetter c || isAsciiDigit c

/-- A character of the local part. -/
def isLocalChar (c : Char) : Bool :=
  isWordChar c || c == '.' || c == '_' || c == '%' || c == '+' || c == '-'

/-- A character of the domain. -/
def isDomainChar (c : Char) : Bool := isWordChar c || c == '.' || c == '-'

/-- Whether a text is a domain with a top-level domain. -/
def isHost (cs : List Char) : Bool :=
  match cutLast '.' cs with
  | (_, none) => false
  | (domain, some top) =>
    !domain.isEmpty && domain.all isDomainChar && 2 ≤ top.length && top.all isAsciiLetter

/-- Whether a text is an address. -/
def isAddress (cs : List Char) : Bool :=
  match cut '@' cs with
  | (_, none) => false
  | (localPart, some host) => !localPart.isEmpty && localPart.all isLocalChar && isHost host

/-- Whether a text is an address, but for a line feed at its end. -/
def accepts (s : String) : Bool := isAddress (withoutFinalBreak s.toList)

end Email

end FieldRules.Format
