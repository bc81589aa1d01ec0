import MockRedirect.Body.Edit
import MockRedirect.Endpoint
import MockRedirect.Mock.Basic
import MockRedirect.Template.Clean
/-! Drafts: mocks that are being composed or edited. -/
namespace MockRedirect
open Text

structure Draft where
  /-- Present when a stored mock is edited. -/
  id : Option MockId
  typedUrl : String
  urlTemplate : String
  verb : Verb
  body : Json
  /-- The body at the start, from which new array elements are made. -/
  sample : Json
  deriving Repr

namespace Draft

/-- A new draft for an endpoint, with the status of the body zeroed. -/
def assemble (url : String) (fallback : Verb) (tree : Json) : Except InputError Draft := do
  let e ← Endpoint.compile url fallback
  let body := tree.zeroStatus
  .ok ⟨none, url, e.template, e.verb, body, body⟩

/-- A draft for an endpoint and an annotated template. -/
def compose (url : String) (fallback : Verb) (template : String) : Except InputError Draft := do
  let url := trimmed url
  if url = "" then .error (.empty "endpoint")
  if isBlankText template then .error (.empty "template")
  Endpoint.validate url
  let tree ← Template.parse template.toList
  assemble url fallback tree

/-- A draft for an endpoint and a tree that is there already. -/
def ofTree (url : String) (fallback : Verb) (tree : Json) : Except InputError Draft := do
  let url := trimmed url
  if url = "" then .error (.empty "endpoint")
  Endpoint.validate url
  assemble url fallback tree

/-- Opens a stored mock for editing. -/
def ofMock (m : Mock) : Draft :=
  let verb := if m.verb.isEmpty then (Endpoint.splitTemplate m.urlTemplate).2.getD .get else m.verb
  let body := m.body.zeroStatus
  ⟨some m.id, m.editableUrl, m.urlTemplate, verb, body, body⟩

/-- Gives a leaf of the body a value from raw text. -/
def setField (d : Draft) (path raw : String) : Except InputError Draft := do
  let p ← FieldPath.parse path
  match d.body.at? p with
  | none => .error (.noField (FieldPath.text p))
  | some current =>
    let body ← d.body.setField p (Json.coerce p raw current)
    .ok { d with body }

def pushItem (d : Draft) (path : String) : Except InputError Draft := do
  let p ← FieldPath.parse path
  let body ← d.body.pushItem p (some d.sample)
  .ok { d with body }

def removeItem (d : Draft) (path : String) (i : Nat) : Except InputError Draft := do
  let p ← FieldPath.parse path
  let body ← d.body.removeItem p i
  .ok { d with body }

/-- The mock to be stored. A draft without an id takes the first free one from `drawn` on. -/
def toMock (d : Draft) (drawn : MockId) (taken : List MockId) : Mock :=
  ⟨d.id.getD (drawn.fresh taken), d.typedUrl, d.urlTemplate, d.verb, d.body, true⟩

end Draft
end MockRedirect
