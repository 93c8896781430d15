import FieldRules.Pattern.Replacing
import FieldRules.Text.Case

/-! # Words of a compound name

A name in mixed case is split into words by underscores and put into lower case.  A first pass
cuts rows of capitals before the last one if a small letter follows it (`UUIDRule`, `UUID_Rule`),
a second one cuts between a small letter or digit and a capital.  Both replace what a pattern
matches by its two groups with an underscore between them, and only ASCII letters and digits are
looked at.
-/

namespace FieldRules.Text

open FieldRules.Pattern

/-- An ASCII capital. -/
def isCapital (c : Char) : Bool := 'A' ≤ c && c ≤ 'Z'

/-- An ASCII small letter. -/
def isSmall (c : Char) : Bool := 'a' ≤ c && c ≤ 'z'

/-- The capitals as a set of a pattern. -/
def capitalItems : List SetItem := [.range 65 90]

/-- A row of capitals, and behind it a capital and a small letter. -/
def wordPattern : Pattern where
  source := "([A-Z]+)([A-Z][a-z])"
  flags := {}
  node := .seq (.capture 1 (.repeated .greedy 1 none (.set false capitalItems)))
    (.capture 2 (.seq (.set false capitalItems) (.set false [.range 97 122])))
  groupWidths := [(1, widthLimit), (2, 2)]

/-- A small letter or digit, and behind it a capital. -/
def humpPattern : Pattern where
  source := "([a-z0-9])([A-Z])"
  flags := {}
  node := .seq (.capture 1 (.set false [.range 97 122, .range 48 57]))
    (.capture 2 (.set false capitalItems))
  groupWidths := [(1, 1), (1, 1)]

/-- Both groups of a match with an underscore between them. -/
def parted : List Insert := Insert.around ['_']

/-- The words of a compound name, in lower case with underscores between them. -/
def snakeCase (name : String) : String :=
  lower (String.ofList
    (humpPattern.replaceAll parted (wordPattern.replaceAll parted name.toList)))

end FieldRules.Text
