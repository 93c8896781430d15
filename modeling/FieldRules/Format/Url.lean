import FieldRules.Format.Email
import FieldRules.Text.Blank

/-! # Web addresses

An address is a scheme, a host, a port if there is one, and a path or query.  The host is a domain
of labels, the word `localhost`, or four numbers.  Letters count in either case, and so do the
characters beyond ASCII that have an ASCII letter as their other case; the digits of the numbers
may be those of any script.  One line feed may follow.
-/

namespace FieldRules.Format.Url

open FieldRules.Text

/-- The characters beyond ASCII that are the other case of an ASCII letter. -/
def foldedLetters : List (Char × Char) :=
  [('\u0130', 'i'), ('\u0131', 'i'), ('\u017f', 's'), ('\u212a', 'k')]

/-- The small letter that a character stands for, or the character itself. -/
def folded (c : Char) : Char := ((foldedLetters.lookup c).getD c).toLower

/-- A letter in either case. -/
def isLetter (c : Char) : Bool := isAsciiLetter (folded c)

/-- A letter or digit. -/
def isWordChar (c : Char) : Bool := isLetter c || isAsciiDigit c

/-- A character inside a label. -/
def isLabelChar (c : Char) : Bool := isWordChar c || c == '-'

/-- A label has at most 63 characters and neither begins nor ends with a hyphen. -/
def isLabel (cs : List Char) : Bool :=
  cs.length ≤ 63 && cs.all isLabelChar && (cs.head?.map isWordChar).getD false &&
    (cs.getLast?.map isWordChar).getD false

/-- A top-level label has two to six letters. -/
def isTopLabel (cs : List Char) : Bool := 2 ≤ cs.length && cs.length ≤ 6 && cs.all isLetter

/-- Drops the last of several pieces if it is empty. -/
def withoutFinalDot (pieces : List (List Char)) : List (List Char) :=
  if pieces.getLast? = some [] then pieces.dropLast else pieces

/-- Whether a text is labels and a top-level label with dots between them; a dot may follow. -/
def isDomain (cs : List Char) : Bool :=
  let labels := withoutFinalDot (splitOn '.' cs)
  2 ≤ labels.length && labels.dropLast.all isLabel && (labels.getLast?.map isTopLabel).getD false

/-- A number of one to three digits. -/
def isShortNumber (cs : List Char) : Bool := 1 ≤ cs.length && cs.length ≤ 3 && cs.all isDigit

/-- Whether a text is four short numbers with dots between them. -/
def isQuad (cs : List Char) : Bool :=
  let numbers := splitOn '.' cs
  numbers.length == 4 && numbers.all isShortNumber

/-- Whether a text is a host. -/
def isHost (cs : List Char) : Bool :=
  isDomain cs || cs.map folded == "localhost".toList || isQuad cs

/-- Whether a text is a path or query, or nothing. -/
def isPath : List Char → Bool
  | [] => true
  | '/' :: rest => rest.all fun c => !isBlank c
  | '?' :: rest => !rest.isEmpty && rest.all fun c => !isBlank c
  | _ => false

/-- Whether a character ends the host. -/
def endsHost (c : Char) : Bool := c == ':' || c == '/' || c == '?'

/-- Whether a character ends the port. -/
def endsPort (c : Char) : Bool := c == '/' || c == '?'

/-- Whether a text is what may follow the host. -/
def isTail : List Char → Bool
  | ':' :: rest =>
    let port := rest.takeWhile fun c => !endsPort c
    !port.isEmpty && port.all isDigit && isPath (rest.dropWhile fun c => !endsPort c)
  | cs => isPath cs

/-- The text after the scheme. -/
def afterScheme? (cs : List Char) : Option (List Char) :=
  if (cs.take 4).map folded = "http".toList then
    let rest := cs.drop 4
    let rest := if rest.head?.map folded = some 's' then rest.drop 1 else rest
    if rest.take 3 = "://".toList then some (rest.drop 3) else none
  else none

/-- Whether a text is an address. -/
def isAddress (cs : List Char) : Bool :=
  match afterScheme? cs with
  | none => false
  | some rest =>
    isHost (rest.takeWhile fun c => !endsHost c) && isTail (rest.dropWhile fun c => !endsHost c)

/-- Whether a text is an address, but for a line feed at its end. -/
def accepts (s : String) : Bool := isAddress (withoutFinalBreak s.toList)

end FieldRules.Format.Url
