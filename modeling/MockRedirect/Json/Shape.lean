import MockRedirect.Json.Basic
import MockRedirect.Json.Fault
/-! Shapes of records: which JSON trees stand for a record, and the one form that all of them are
brought to. Main functions: `Shape.fit` for trees, and `Shape.read` for text. -/
namespace MockRedirect

/-- What becomes of a field that is not given. -/
inductive Absence where
  | refused
  | replaced (value : Json)
  /-- Only a record whose fields are named may leave the field out. -/
  | replacedWhenNamed (value : Json)
  deriving Repr

/-- A field of a record, with its other names. -/
structure Field (α : Type) where
  name : String
  aliases : List String
  absence : Absence
  content : α

/-- What a value has to look like. `members` is any object. A record is an object, or an array of
its fields in order. The words of `record` and `tagged` name what was expected. -/
inductive Shape where
  | tree
  | text
  | flag
  | integer (name : String) (low high : Int)
  | checked (check : Json → Except Fault Json)
  | optional (shape : Shape)
  | members
  | word (known : List String)
  | list (shape : Shape)
  | record (name : String) (fields : List (Field Shape))
  /-- An object whose member `tag` tells which of several records its other members form. -/
  | tagged (name tag : String) (variants : List (String × Shape))

/-- The kind of a value, as messages tell it. -/
def Json.found : Json → Found
  | .null => .null
  | .bool b => .bool b
  | .int n => .int n
  | .float x => .float x
  | .str s => .str s
  | .arr _ => .sequence
  | .obj _ => .map

namespace Field

def isNamed (key : String) (f : Field α) : Bool := f.name == key || f.aliases.contains key

/-- The field that a key stands for. -/
def find? (fields : List (Field α)) (key : String) : Option (Field α) := fields.find? (isNamed key)

/-- How many fields a record has, in words. -/
def count (name : String) (fields : List (Field α)) : String :=
  name ++ " with " ++ String.ofList (natDigits fields.length) ++
    if fields.length = 1 then " element" else " elements"

/-- The value of a field that was not given by name. -/
def whenMissing (f : Field α) : Except Fault Json :=
  match f.absence with
  | .refused => .error (.missingField f.name)
  | .replaced v => .ok v
  | .replacedWhenNamed v => .ok v

/-- The members of a record in the order of its fields, from those that were given by name. -/
def complete (fields : List (Field α)) (given : Members) : Except Fault Members :=
  fields.mapM fun f =>
    match Members.get? f.name given with
    | some v => .ok (f.name, v)
    | none => f.whenMissing.map fun v => (f.name, v)

/-- The value of a field, the `i`th, that an array is too short for. -/
def whenShort (expected : String) (i : Nat) (f : Field α) : Except Fault Json :=
  match f.absence with
  | .replaced v => .ok v
  | _ => .error (.wrongLength i expected)

end Field

namespace Shape

/-- Members with known keys put under the names of their fields; a field may be given only once. -/
def gather (fields : List (Field (Json → Except Fault Json))) :
    Members → Members → Except Fault Members
  | [], given => .ok given
  | (k, v) :: ms, given =>
    match Field.find? fields k with
    | none => gather fields ms given
    | some f => do
      if (Members.get? f.name given).isSome then .error (.repeatedField f.name)
      let w ← f.content v
      gather fields ms (given ++ [(f.name, w)])

/-- The fields from the `i`th on, taken from the elements of an array. -/
def take (expected : String) :
    Nat → List (Field (Json → Except Fault Json)) → List Json → Except Fault Members
  | _, [], [] => .ok []
  | i, [], vs =>
    .error (.wrongLength (i + vs.length)
      (String.ofList (natDigits i) ++ (if i = 1 then " element" else " elements") ++ " in sequence"))
  | i, f :: fs, v :: vs => do
    let w ← f.content v
    let ms ← take expected (i + 1) fs vs
    .ok ((f.name, w) :: ms)
  | i, f :: fs, [] => do
    let w ← f.whenShort expected i
    let ms ← take expected (i + 1) fs []
    .ok ((f.name, w) :: ms)

/-- The variant that the value of a tag names. -/
def tagName (known : List String) : Json → Except Fault String
  | .str s => if known.contains s then .ok s else .error (.unknownVariant s known)
  | v => .error (.wrongType v.found "variant identifier")

/-- The variant of an object, and its members without the tag. -/
def splitTag (tag : String) (known : List String) (ms : Members) : Except Fault (String × Members) :=
  match ms.filter (·.1 = tag) with
  | [] => .error (.missingField tag)
  | [(_, v)] => (tagName known v).map fun variant => (variant, ms.filter (·.1 ≠ tag))
  | _ => .error (.repeatedField tag)

mutual
/-- The normal form of a tree that has the shape: a record is an object with all its fields, in
order and under their first names. -/
def fit : Shape → Json → Except Fault Json
  | .tree, v => .ok v.merged
  | .text, v => if let .str _ := v then .ok v else .error (.wrongType v.found "a string")
  | .flag, v => if let .bool _ := v then .ok v else .error (.wrongType v.found "a boolean")
  | .integer name low high, v =>
    match v with
    | .int n => if low ≤ n ∧ n ≤ high then .ok v else .error (.wrongValue v.found name)
    | v => .error (.wrongType v.found name)
  | .checked check, v => check v
  | .optional shape, v =>
    match v with
    | .null => .ok .null
    | v => fit shape v
  | .members, v => if let .obj _ := v then .ok v.merged else .error (.wrongType v.found "a map")
  | .word known, v =>
    match v with
    | .str s => if known.contains s then .ok v else .error (.unknownVariant s known)
    | v => .error (.wrongType v.found "string or map")
  | .list shape, v =>
    match v with
    | .arr vs => (vs.mapM (fit shape)).map .arr
    | v => .error (.wrongType v.found "a sequence")
  | .record name fields, v =>
    match v with
    | .obj ms => do
      let given ← gather (fitters fields) ms []
      let ms ← Field.complete fields given
      .ok (.obj ms)
    | .arr vs => (take (Field.count name fields) 0 (fitters fields) vs).map .obj
    | v => .error (.wrongType v.found name)
  | .tagged name tag variants, v =>
    match v with
    | .obj ms => do
      let (variant, ms) ← splitTag tag (variants.map (·.1)) ms
      fitVariant variants tag variant (.obj ms)
    | .arr [] => .error (.missingField tag)
    | .arr (v :: vs) => do
      let variant ← tagName (variants.map (·.1)) v
      fitVariant variants tag variant (.arr vs)
    | v => .error (.wrongType v.found name)
/-- The record that a variant makes of the other members, with the tag put in front. -/
def fitVariant : List (String × Shape) → String → String → Json → Except Fault Json
  | [], _, variant, _ => .error (.unknownVariant variant [])
  | (name, shape) :: vs, tag, variant, v =>
    if name = variant then do
      match ← fit shape v with
      | .obj ms => .ok (.obj ((tag, .str name) :: ms))
      | v => .ok v
    else fitVariant vs tag variant v
def fitters : List (Field Shape) → List (Field (Json → Except Fault Json))
  | [] => []
  | ⟨name, aliases, absence, shape⟩ :: fs => ⟨name, aliases, absence, fit shape⟩ :: fitters fs
end

end Shape
end MockRedirect
