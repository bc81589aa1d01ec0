import MockRedirect.Body.Path
import MockRedirect.Body.Status
import MockRedirect.Text.Blank
/-! Edits of a body at a path. -/
namespace MockRedirect.Json
open MockRedirect

/-- The child under a segment. -/
def child? (v : Json) : Segment → Option Json
  | .key name => v.field? name
  | .index i => v.item? i

/-- The value at a path. -/
def at? (v : Json) : FieldPath → Option Json
  | [] => some v
  | s :: path => (v.child? s).bind fun w => w.at? path

/-- The tree with the value at a path changed; nothing if the path leads nowhere. -/
def modifyAt? (f : Json → Option Json) : FieldPath → Json → Option Json
  | [], v => f v
  | .key name :: path, .obj ms => do
    let w ← Members.get? name ms
    let w ← modifyAt? f path w
    some (.obj (Members.put name w ms))
  | .index i :: path, .arr xs => do
    let w ← xs[i]?
    let w ← modifyAt? f path w
    some (.arr (xs.set i w))
  | _, _ => none

/-- Puts a value under a segment: any key of an object, or an element that exists. -/
def putChild? (s : Segment) (value : Json) : Json → Option Json
  | .obj ms =>
    match s with
    | .key name => some (.obj (Members.put name value ms))
    | .index _ => none
  | .arr xs =>
    match s with
    | .index i => if i < xs.length then some (.arr (xs.set i value)) else none
    | .key _ => none
  | _ => none

def orNoField (path : String) : Option Json → Except InputError Json
  | some v => .ok v
  | none => .error (.noField path)

/-- Replaces the value at a path, or adds a field to an object. -/
def setField (root : Json) (path : FieldPath) (value : Json) : Except InputError Json :=
  orNoField (FieldPath.text path) <|
    match path.getLast? with
    | some s => modifyAt? (putChild? s value) path.dropLast root
    | none => none

/-- What a new element of the array `xs` at a path starts from: the first element, else the first
element of the same array in `structure?`, else an empty object. -/
def newItem (xs : List Json) (path : FieldPath) (structure? : Option Json) : Json :=
  match xs with
  | x :: _ => x
  | [] =>
    ((structure?.bind fun s => s.at? (FieldPath.firstElements path ++ [.index 0])).getD (.obj []))

def pushItem (root : Json) (path : FieldPath) (structure? : Option Json) : Except InputError Json :=
  orNoField (FieldPath.text path) <|
    modifyAt? (fun
      | .arr xs => some (.arr (xs ++ [newItem xs path structure?]))
      | _ => none) path root

def removeItem (root : Json) (path : FieldPath) (i : Nat) : Except InputError Json :=
  match root.at? path with
  | some (.arr xs) =>
    if i < xs.length then
      orNoField (FieldPath.text path) (modifyAt? (fun _ => some (.arr (xs.eraseIdx i))) path root)
    else .error (.noField (FieldPath.text (path ++ [.index i])))
  | _ => .error (.noField (FieldPath.text path))

mutual
/-- Every scalar with its path, in the order of the document. -/
def leaves (path : FieldPath) : Json → List (FieldPath × Json)
  | .obj ms => leavesOfMembers path ms
  | .arr xs => leavesOfItems path 0 xs
  | v => [(path, v)]
def leavesOfMembers (path : FieldPath) : Members → List (FieldPath × Json)
  | [] => []
  | (k, v) :: ms => leaves (path ++ [.key k]) v ++ leavesOfMembers path ms
def leavesOfItems (path : FieldPath) (i : Nat) : List Json → List (FieldPath × Json)
  | [] => []
  | v :: vs => leaves (path ++ [.index i]) v ++ leavesOfItems path (i + 1) vs
end

/-- The words that switch a flag on. -/
def onWords : List String := ["true", "1", "on", "yes"]

/-- The value that raw text stands for where `current` stood. An error indicator of the status
stays zero, a flag stays a flag; otherwise numbers are numbers and all else is text. -/
def coerce (path : FieldPath) (raw : String) (current : Json) : Json :=
  if (FieldPath.lastKey? path).any (statusErrorFields.contains ·) then .int 0
  else
    let s := Text.trim raw.toList
    if current.isBool then .bool (onWords.contains (String.ofList (Text.lowercase s)))
    else
      match readInt64? s with
      | some n => .int n
      | none =>
        match readDecimal? s with
        | some x => .float x
        | none => .str raw

end MockRedirect.Json
