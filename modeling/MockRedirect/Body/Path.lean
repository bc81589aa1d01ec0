import MockRedirect.Decimal.Written
import MockRedirect.InputError
import MockRedirect.Text.Pieces
/-! Paths into a body, such as `Items[0].Name`. -/
namespace MockRedirect

inductive Segment where
  | key (name : String)
  | index (i : Nat)
  deriving DecidableEq, Repr

/-- Dot-separated keys, each followed by any number of indices; only the first key may be missing. -/
abbrev FieldPath := List Segment

namespace FieldPath
open Text

/-- The indices in a text such as `[2][0]`. -/
def indices? (s : List Char) : Option (List Segment) :=
  if s = [] then some []
  else
    let pieces := split ']' s
    if pieces.getLast? = some [] then
      pieces.dropLast.mapM fun piece =>
        match piece with
        | '[' :: digits => (readNat64? digits).map Segment.index
        | _ => none
    else none

/-- The segments between two dots. A key is needed except at the start of the path. -/
def part? (first : Bool) (s : List Char) : Option (List Segment) :=
  let name := s.takeWhile (· ≠ '[')
  let rest := s.dropWhile (· ≠ '[')
  if name = [] then if first && rest ≠ [] then indices? rest else none
  else (indices? rest).map (Segment.key (String.ofList name) :: ·)

def parts? : Bool → List (List Char) → Option (List Segment)
  | _, [] => some []
  | first, p :: ps => do
    let segments ← part? first p
    let rest ← parts? false ps
    some (segments ++ rest)

def parse (text : String) : Except InputError FieldPath :=
  match parts? true (split '.' text.toList) with
  | some path => .ok path
  | none => .error (.noField text)

def segmentText (first : Bool) : Segment → List Char
  | .key name => if first then name.toList else '.' :: name.toList
  | .index i => '[' :: natDigits i ++ [']']

/-- The path as it is typed. -/
def render : FieldPath → List Char
  | [] => []
  | s :: ss => segmentText true s ++ ss.flatMap (segmentText false)

def text (path : FieldPath) : String := String.ofList (render path)

/-- The key of the addressed field, if the path ends in a key. -/
def lastKey? (path : FieldPath) : Option String :=
  match path.getLast? with
  | some (.key name) => some name
  | _ => none

/-- The path with every index replaced by zero. -/
def firstElements (path : FieldPath) : FieldPath :=
  path.map fun
    | .index _ => .index 0
    | .key name => .key name

example : (parse "Data.Items[2][0].Name").map text = .ok "Data.Items[2][0].Name" := rfl
example : parse "a.[0]" = .error (.noField "a.[0]") := rfl

end FieldPath
end MockRedirect
