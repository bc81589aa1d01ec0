import MockRedirect.Mock.Basic
/-! The stored list of mocks. Elements that are no mocks are kept as they are, in place. -/
namespace MockRedirect

inductive Record where
  | mock (m : Mock)
  | unreadable (v : Json)
  deriving Repr

namespace Record

def ofJson (v : Json) : Record :=
  match Mock.decoder.ofJson? v with
  | some m => .mock m
  | none => .unreadable v

def toJson : Record → Json
  | mock m => m.toJson
  | unreadable v => v

def mock? : Record → Option Mock
  | mock m => some m
  | unreadable _ => none

def hasId (id : MockId) : Record → Bool
  | mock m => m.id = id
  | unreadable _ => false

end Record

/-- The stored list as read. -/
abbrev Records := List Record

namespace Records

/-- The key of the list in a store. -/
def key : String := "mocks"

/-- What is stored under the key; anything but an array holds no records. -/
def ofEntries (entries : Members) : Records :=
  match Members.get? key entries with
  | some (.arr vs) => vs.map Record.ofJson
  | _ => []

/-- The entry that stores the records. -/
def toEntries (rs : Records) : Members := [(key, .arr (rs.map Record.toJson))]

def mocks (rs : Records) : List Mock := rs.filterMap Record.mock?

def ids (rs : Records) : List MockId := rs.mocks.map (·.id)

def find? (rs : Records) (id : MockId) : Option Mock := rs.mocks.find? (·.id = id)

/-- The records with the first mock of an id replaced. -/
def replace (id : MockId) (m : Mock) : Records → Records
  | [] => []
  | r :: rs => if r.hasId id then .mock m :: rs else r :: replace id m rs

/-- Replaces the mock with the same id, or adds the mock at the end. -/
def put (rs : Records) (m : Mock) : Records :=
  if rs.any (·.hasId m.id) then rs.replace m.id m else rs ++ [.mock m]

/-- The records without the mocks that have an id. -/
def remove (rs : Records) (id : MockId) : Records := rs.filter (!·.hasId id)

end Records
end MockRedirect
