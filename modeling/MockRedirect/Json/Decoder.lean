import MockRedirect.Json.ShapeReader
/-! Records out of JSON trees and texts. -/
namespace MockRedirect

/-- The shape of a record, and the record that a normal form of this shape stands for. -/
structure Decoder (α : Type) where
  shape : Shape
  get? : Json → Option α

namespace Decoder

/-- The record that a tree stands for. -/
def ofJson? (d : Decoder α) (v : Json) : Option α :=
  match d.shape.fit v with
  | .ok v => d.get? v
  | .error _ => none

/-- Reads a document that holds one record. -/
def parse (d : Decoder α) (text : List Char) : Except JsonError α := do
  let v ← d.shape.readDocument text
  match d.get? v with
  | some a => .ok a
  | none => .error ⟨.expectedValue, none⟩

def list (d : Decoder α) : Decoder (List α) where
  shape := .list d.shape
  get? := fun
    | .arr vs => vs.mapM d.get?
    | _ => none

end Decoder
end MockRedirect
