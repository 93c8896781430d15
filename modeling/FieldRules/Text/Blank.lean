/-! # Blank characters

A blank is a character that separates words: the ASCII controls that move the print position,
the four ASCII information separators, the space and the spaces, line and paragraph separators
of other scripts.
-/

namespace FieldRules.Text

/-- The space and the ASCII controls tab, line feed, vertical tab, form feed, carriage return. -/
def isAsciiBlank (c : Char) : Bool := c == ' ' || (9 ≤ c.toNat && c.toNat ≤ 13)

/-- A blank beyond ASCII. -/
def isWideBlank (c : Char) : Bool :=
  let code := c.toNat
  code == 0x85 || code == 0xA0 || code == 0x1680 || (0x2000 ≤ code && code ≤ 0x200A) ||
    code == 0x2028 || code == 0x2029 || code == 0x202F || code == 0x205F || code == 0x3000

/-- Whether a character is a blank. -/
def isBlank (c : Char) : Bool :=
  isAsciiBlank c || (28 ≤ c.toNat && c.toNat ≤ 31) || isWideBlank c

end FieldRules.Text
