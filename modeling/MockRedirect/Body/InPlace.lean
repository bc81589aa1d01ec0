import MockRedirect.Body.Edit
/-! Edits of a tree in place: the value to be changed is looked up and checked, and then it is written over. -/
namespace MockRedirect

/-- Work on one tree. What it has written before it fails stays written. -/
abbrev InPlace (α : Type) := ExceptT InputError (StateM Json) α

namespace InPlace
open Json

/-- The value at a path. -/
def look (path : FieldPath) (missing : InputError) : InPlace Json := do
  match (← get).at? path with
  | some v => pure v
  | none => throw missing

/-- Writes over the value at a path. -/
def write (path : FieldPath) (v : Json) : InPlace Unit :=
  modify fun root => (modifyAt? (fun _ => some v) path root).getD root

/-- Changes the value at a path. -/
def change (path : FieldPath) (missing : InputError) (f : Json → Except InputError Json) : InPlace Unit := do
  match f (← look path missing) with
  | .ok v => write path v
  | .error e => throw e

def setField (path : FieldPath) (value : Json) : InPlace Unit :=
  let missing := .noField (FieldPath.text path)
  match path.getLast? with
  | some s => change path.dropLast missing fun v => orNoField (FieldPath.text path) (putChild? s value v)
  | none => throw missing

def pushItem (path : FieldPath) (structure? : Option Json) : InPlace Unit :=
  let missing := .noField (FieldPath.text path)
  change path missing fun
    | .arr xs => .ok (.arr (xs ++ [newItem xs path structure?]))
    | _ => .error missing

def removeItem (path : FieldPath) (i : Nat) : InPlace Unit :=
  let missing := .noField (FieldPath.text path)
  change path missing fun
    | .arr xs =>
      if i < xs.length then .ok (.arr (xs.eraseIdx i))
      else .error (.noField (FieldPath.text (path ++ [.index i])))
    | _ => .error missing

/-- The answer of an edit and the tree after it, if it is all or nothing. -/
def settled (root : Json) : Except InputError Json → Except InputError Unit × Json
  | .ok w => (.ok (), w)
  | .error e => (.error e, root)

end InPlace
end MockRedirect
