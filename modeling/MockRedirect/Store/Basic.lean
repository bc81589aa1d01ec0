import MockRedirect.Json.Decoder
import MockRedirect.Store.Channel
import MockRedirect.Store.Error
import MockRedirect.Text.Blank
/-! The store: entries under keys, the file with a copy of them, and the notices of its changes. -/
namespace MockRedirect

/-- Where entries are kept besides in memory. The text is that of the file, if it is there. -/
inductive Backing where
  | memory
  | file (text : Option String)
  deriving DecidableEq, Repr

structure Store where
  entries : Members
  backing : Backing
  changes : Channel
  deriving Repr

namespace Store

def inMemory : Store := ⟨[], .memory, .empty⟩

def decoder : Decoder Members where
  shape := .members
  get? := fun
    | .obj ms => some ms
    | _ => none

/-- The entries in the text of a store file; a blank file holds none. -/
def parse (text : String) : Except JsonError Members :=
  if Text.isBlankText text then .ok [] else decoder.parse text.toList

def fileText (entries : Members) : String := (Json.obj entries).prettyText ++ "\n"

/-- Opens a store on a file, which may be missing. -/
def openFile (text : Option String) : Except JsonError Store :=
  match text with
  | none => .ok ⟨[], .file none, .empty⟩
  | some t => (parse t).map fun entries => ⟨entries, .file text, .empty⟩

/-- The entries of some keys that are there, in the order asked for. -/
def get (s : Store) (keys : List String) : Members :=
  Members.putAll [] (keys.filterMap fun k => (Members.get? k s.entries).map fun v => (k, v))

/-- Writes some entries at once, of which nobody is told yet. -/
def write (s : Store) (new : Members) : Store :=
  let entries := Members.putAll s.entries new
  { s with
    entries
    backing := match s.backing with
      | .memory => .memory
      | .file _ => .file (some (fileText entries)) }

/-- Sends the notice of a write. -/
def announce (s : Store) (c : Change) : Store := { s with changes := s.changes.send c }

/-- Writes some entries and sends one notice; writing nothing does nothing. -/
def set (s : Store) (new : Members) : Store :=
  if new = [] then s else (s.write new).announce ⟨Members.keys new⟩

theorem set_nil (s : Store) : s.set [] = s := if_pos rfl

theorem entries_set (s : Store) (new : Members) :
    (s.set new).entries = Members.putAll s.entries new := by
  unfold set
  split
  · next h =>
    rw [h]
    rfl
  · rfl

/-- An operation on the entries: its answer, and the entries that it writes. It sees the entries as
they were before, and one that fails writes nothing. -/
abbrev Operation (α : Type) := Members → Except StoreError (α × Members)

/-- Runs an operation on a store. -/
def perform (op : Operation α) (s : Store) : Except StoreError α × Store :=
  match op s.entries with
  | .ok (a, new) => (.ok a, s.set new)
  | .error e => (.error e, s)

/-- Writes are kept in memory, or there is a file that takes them. -/
def CanWrite (writable : Bool) (s : Store) : Prop := s.backing = .memory ∨ writable = true

instance (writable : Bool) (s : Store) : Decidable (CanWrite writable s) :=
  inferInstanceAs (Decidable (_ ∨ _))

/-- Runs an operation on a store whose file may not be writable. What cannot be kept is not done. -/
def attempt (writable : Bool) (op : Operation α) (s : Store) : Except StoreError α × Store :=
  match op s.entries with
  | .ok (a, new) =>
    if new = [] ∨ CanWrite writable s then (.ok a, s.set new) else (.error .unavailable, s)
  | .error e => (.error e, s)

theorem attempt_true (op : Operation α) (s : Store) : attempt true op s = perform op s := by
  unfold attempt perform CanWrite
  cases op s.entries <;> simp

end Store
end MockRedirect
