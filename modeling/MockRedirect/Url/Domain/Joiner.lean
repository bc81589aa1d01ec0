import MockRedirect.Text.CombiningClass
import MockRedirect.Text.Joining
/-! Where joiners, which have no shape of their own, can stand in a label. -/
namespace MockRedirect.Domain
open Text

/-- Joins letters beside it that would stand apart. -/
def joiner : Char := '\u200d'

/-- Keeps letters beside it apart that would join. -/
def nonJoiner : Char := '\u200c'

/-- Whether the first letter of a text, marks left out, joins as asked. -/
def firstJoins (joins : Char → Bool) (s : List Char) : Bool :=
  (s.dropWhile isTransparent).head?.any joins

/-- Whether the joiners in the rest of a label fit; `before` is what precedes it, last character
first. Either joiner may follow a virama, and a non-joiner may stand between letters that would
join. -/
def joinersFit (before : List Char) : List Char → Bool
  | [] => true
  | c :: after =>
    ((c ≠ joiner && c ≠ nonJoiner) || before.head?.any isVirama ||
      (c = nonJoiner && firstJoins joinsNext before && firstJoins joinsPrevious after)) &&
      joinersFit (c :: before) after

example : ["क\u094d\u200dष", "ب\u200cب", "ab"].all (joinersFit [] ·.toList) = true := by
  decide +kernel
example : ["\u200d", "a\u200cb", "ا\u200cب", "ب\u200dب"].any (joinersFit [] ·.toList) = false := by
  decide +kernel

end MockRedirect.Domain
