import FieldRules.Text.Case

/-! # Matching letters in either case

Two characters match in either case when they have the same small letter, or small letters
with the same capital, of which there are a few pairs beyond the case tables.
-/

namespace FieldRules.Pattern

open FieldRules.Text

/-- Small letters with the other small letters that have the same capital. -/
def twinTable : List (Nat × List Nat) := [
    (0x69, [0x131]), (0x73, [0x17F]), (0xB5, [0x3BC]), (0x131, [0x69]), (0x17F, [0x73]),
    (0x345, [0x3B9, 0x1FBE]), (0x390, [0x1FD3]), (0x3B0, [0x1FE3]), (0x3B2, [0x3D0]),
    (0x3B5, [0x3F5]), (0x3B8, [0x3D1]), (0x3B9, [0x345, 0x1FBE]), (0x3BA, [0x3F0]), (0x3BC, [0xB5]),
    (0x3C0, [0x3D6]), (0x3C1, [0x3F1]), (0x3C2, [0x3C3]), (0x3C3, [0x3C2]), (0x3C6, [0x3D5]),
    (0x3D0, [0x3B2]), (0x3D1, [0x3B8]), (0x3D5, [0x3C6]), (0x3D6, [0x3C0]), (0x3F0, [0x3BA]),
    (0x3F1, [0x3C1]), (0x3F5, [0x3B5]), (0x432, [0x1C80]), (0x434, [0x1C81]), (0x43E, [0x1C82]),
    (0x441, [0x1C83]), (0x442, [0x1C84, 0x1C85]), (0x44A, [0x1C86]), (0x463, [0x1C87]),
    (0x1C80, [0x432]), (0x1C81, [0x434]), (0x1C82, [0x43E]), (0x1C83, [0x441]),
    (0x1C84, [0x442, 0x1C85]), (0x1C85, [0x442, 0x1C84]), (0x1C86, [0x44A]), (0x1C87, [0x463]),
    (0x1C88, [0xA64B]), (0x1E61, [0x1E9B]), (0x1E9B, [0x1E61]), (0x1FBE, [0x345, 0x3B9]),
    (0x1FD3, [0x390]), (0x1FE3, [0x3B0]), (0xA64B, [0x1C88]), (0xFB05, [0xFB06]),
    (0xFB06, [0xFB05])]

/-- The other small letters with the same capital. -/
def twins (code : Nat) : List Nat := ((twinTable.find? (·.1 == code)).map (·.2)).getD []

/-- Whether a number is a code point of text. -/
def isTextCode (code : Nat) : Bool := code < 0xD800 || (0xDFFF < code && code < 0x110000)

/-- The small letter of a code point. -/
def lowerCode (ascii : Bool) (code : Nat) : Nat :=
  if ascii then (if 65 ≤ code && code ≤ 90 then code + 32 else code)
  else if isTextCode code then (lowerChar (Char.ofNat code)).toNat else code

/-- The first of the capitals of a code point. -/
def upperCode (code : Nat) : Nat :=
  if isTextCode code then ((upperChars (Char.ofNat code)).head?.map Char.toNat).getD code else code

/-- Whether a code point has another case. -/
def isCasedCode (ascii : Bool) (code : Nat) : Bool :=
  if ascii then (65 ≤ code && code ≤ 90) || (97 ≤ code && code ≤ 122)
  else lowerCode false code != code || upperCode code != code

/-- The capitals of a small letter. -/
def capitalsOf (ascii : Bool) (small : Nat) : List Nat :=
  let basic := if 97 ≤ small && small ≤ 122 then [small - 32] else []
  if ascii then basic
  else
    let wide := lowerRuns.filterMap fun run =>
      let code := (Int.ofNat small - run.shift).toNat
      if run.covers code then some code else none
    let dotted := if small == 105 then [0x130] else []
    basic ++ wide ++ dotted

/-- All code points that match a small letter in either case. -/
def variants (ascii : Bool) (small : Nat) : List Nat :=
  let smalls := small :: (if ascii then [] else twins small)
  smalls ++ smalls.flatMap (capitalsOf ascii)

end FieldRules.Pattern
