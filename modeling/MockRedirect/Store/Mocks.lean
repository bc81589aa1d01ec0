import MockRedirect.Mock.Draft
import MockRedirect.Store.Basic
import MockRedirect.Store.Record
/-! The operations on the stored mocks and on the switch for all of them. Each reads the stored
list, changes it, and writes it back as one entry. -/
namespace MockRedirect
open Store

/-- The key of the switch in a store. -/
def globalKey : String := "globalEnabled"

namespace Mocks

/-! ### Reading -/

def list : Operation (List Mock) := fun entries => .ok ((Records.ofEntries entries).mocks, [])

def get (id : MockId) : Operation Mock := fun entries =>
  match (Records.ofEntries entries).find? id with
  | some m => .ok (m, [])
  | none => .error (.notFound id)

/-- The switch counts as on unless it is an explicit false. -/
def isOn (entries : Members) : Bool :=
  match Members.get? globalKey entries with
  | some (.bool false) => false
  | _ => true

def globalEnabled : Operation Bool := fun entries => .ok (isOn entries, [])

/-! ### Writing -/

/-- Writes an empty list and an open switch, each where it is missing. -/
def seed : Operation Unit := fun entries =>
  let list : Members :=
    if (Members.get? Records.key entries).any Json.isArray then [] else [(Records.key, .arr [])]
  let switch : Members :=
    if (Members.get? globalKey entries).isSome then [] else [(globalKey, .bool true)]
  .ok ((), list ++ switch)

def setGlobal (on : Bool) : Operation Unit := fun _ => .ok ((), [(globalKey, .bool on)])

def save (m : Mock) : Operation Mock := fun entries =>
  .ok (m, ((Records.ofEntries entries).put m).toEntries)

/-- Saves a draft; one without an id takes the first free id from `drawn` on. -/
def saveDraft (d : Draft) (drawn : MockId) : Operation Mock := fun entries =>
  save (d.toMock drawn (Records.ofEntries entries).ids) entries

/-- The mocks that drafts become beside the ids that are taken; `draw` gives the id drawn for each.
An id that a draft carries does not count. -/
def fromDrafts (draw : Nat → MockId) : Nat → List MockId → List Draft → List Mock
  | _, _, [] => []
  | i, taken, d :: ds =>
    let m := { d with id := none }.toMock (draw i) taken
    m :: fromDrafts draw (i + 1) (m.id :: taken) ds

/-- Adds a mock for each draft at the end. -/
def addAll (ds : List Draft) (draw : Nat → MockId) : Operation (List Mock) := fun entries =>
  let rs := Records.ofEntries entries
  let added := fromDrafts draw 0 rs.ids ds
  .ok (added, (rs ++ added.map Record.mock : Records).toEntries)

/-- Changes the mock with an id in place. -/
def modify (id : MockId) (edit : Mock → Except InputError Mock) : Operation Mock :=
  fun entries => do
  let rs := Records.ofEntries entries
  match rs.find? id with
  | none => .error (.notFound id)
  | some m =>
    let m ← (edit m).mapError .input
    .ok (m, (rs.replace id m).toEntries)

/-- Switches a mock on or off; gives the new state. -/
def toggle (id : MockId) : Operation Bool := fun entries => do
  let (m, new) ← modify id (fun m => .ok { m with enabled := !m.enabled }) entries
  .ok (m.enabled, new)

def delete (id : MockId) : Operation Unit := fun entries =>
  let rs := Records.ofEntries entries
  if rs.any (·.hasId id) then .ok ((), (rs.remove id).toEntries) else .error (.notFound id)

/-- Removes everything from the list, also what is no mock. -/
def deleteAll : Operation Unit := fun _ => .ok ((), Records.toEntries [])

/-- A mock with another verb, in its template and in the endpoint as typed. -/
def withVerb (verb : Verb) (m : Mock) : Mock :=
  let (path, _) := Endpoint.splitTemplate m.urlTemplate
  { m with
    urlTemplate := Endpoint.templateText path verb
    typedUrl := if m.typedUrl = "" then "" else Endpoint.withVerb m.typedUrl verb
    verb }

def updateVerb (id : MockId) (verb : Verb) : Operation Mock :=
  modify id fun m => .ok (withVerb verb m)

/-- A mock with another endpoint; its verb is the one to fall back on. -/
def withUrl (url : String) (m : Mock) : Except InputError Mock := do
  Endpoint.validate url
  let e ← Endpoint.compile url m.verb
  .ok { m with typedUrl := Text.trimmed url, urlTemplate := e.template, verb := e.verb }

/-- Gives a mock another endpoint; tells whether the template has changed. -/
def updateUrl (id : MockId) (url : String) : Operation Bool := fun entries => do
  let (old, _) ← get id entries
  let (m, new) ← modify id (withUrl url) entries
  .ok (m.urlTemplate ≠ old.urlTemplate, new)

/-- Edits the body of a mock through a draft. -/
def modifyBody (id : MockId) (edit : Draft → Except InputError Draft) : Operation Mock :=
  modify id fun m => (edit (Draft.ofMock m)).map fun d => { m with body := d.body }

def updateField (id : MockId) (path raw : String) : Operation Mock :=
  modifyBody id (·.setField path raw)

def pushItem (id : MockId) (path : String) : Operation Mock := modifyBody id (·.pushItem path)

def removeItem (id : MockId) (path : String) (i : Nat) : Operation Mock :=
  modifyBody id (·.removeItem path i)

end Mocks
end MockRedirect
