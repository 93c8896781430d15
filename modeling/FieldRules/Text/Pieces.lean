import FieldRules.Text.Blank

/-! # Cutting text into pieces

Trimming, splitting and joining on lists of characters, with the same operations on strings
beside them.
-/

namespace FieldRules.Text

/-- Drops the leading characters of a class. -/
def trimLeft (drop : Char → Bool) (cs : List Char) : List Char := cs.dropWhile drop

/-- Drops the trailing characters of a class. -/
def trimRight (drop : Char → Bool) (cs : List Char) : List Char :=
  (cs.reverse.dropWhile drop).reverse

/-- Drops the characters of a class at both ends. -/
def trim (drop : Char → Bool) (cs : List Char) : List Char := trimRight drop (trimLeft drop cs)

/-- Drops the blanks at both ends. -/
def strip (cs : List Char) : List Char := trim isBlank cs

/-- The pieces between the occurrences of a separator; there is one more piece than
separators, so a text without any is one piece. -/
def splitOn (separator : Char) : List Char → List (List Char)
  | [] => [[]]
  | c :: rest =>
    if c = separator then [] :: splitOn separator rest
    else match splitOn separator rest with
      | piece :: pieces => (c :: piece) :: pieces
      | [] => [[c]]

/-- The text before the first separator, and the text after it if there is one. -/
def cut (separator : Char) : List Char → List Char × Option (List Char)
  | [] => ([], none)
  | c :: rest =>
    if c = separator then ([], some rest)
    else
      let (before, after) := cut separator rest
      (c :: before, after)

/-- Replaces every pair of underscores, found from the left, by a dot. -/
def dotPairs : List Char → List Char
  | '_' :: '_' :: rest => '.' :: dotPairs rest
  | c :: rest => c :: dotPairs rest
  | [] => []

/-- Replaces each underscore by a space. -/
def spaced (s : String) : String :=
  String.ofList (s.toList.map fun c => if c = '_' then ' ' else c)

/-- The strings with a separator between each two. -/
def joinWith (separator : String) : List String → String
  | [] => ""
  | [s] => s
  | s :: rest => s ++ separator ++ joinWith separator rest

/-- A string without the blanks at its ends. -/
def stripped (s : String) : String := String.ofList (strip s.toList)

/-- The pieces of a string between the occurrences of a separator. -/
def pieces (separator : Char) (s : String) : List String :=
  (splitOn separator s.toList).map String.ofList

/-- Whether a string begins with another. -/
def beginsWith (s start : String) : Bool := start.toList.isPrefixOf s.toList

end FieldRules.Text
