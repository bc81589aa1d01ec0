import Mathlib.Logic.Function.Basic
import MockRedirect.Store.Call
/-! Two clients with a call each on one store. A call first reads the entries, once or twice, and then
writes; between its steps those of the other call may come. -/
namespace MockRedirect

/-! ### A call in steps -/

/-- What is left of an operation that is under way. -/
inductive Pending (α : Type) where
  /-- The entries are to be read. -/
  | read (next : Members → Pending α)
  /-- All is read; if there are entries to be written, they are written now. -/
  | commit (result : Except StoreError (α × Members))
  | done (answer : Except StoreError α)

/-- Ends an operation that has come to `result`. -/
def Store.commit (writable : Bool) (result : Except StoreError (α × Members)) (s : Store) :
    Except StoreError α × Store :=
  match result with
  | .ok (a, new) =>
    if new = [] ∨ CanWrite writable s then (.ok a, s.set new) else (.error .unavailable, s)
  | .error e => (.error e, s)

/-- What nobody comes between is run at once. -/
theorem Store.attempt_eq_commit (writable : Bool) (op : Operation α) (s : Store) :
    s.attempt writable op = s.commit writable (op s.entries) := by
  unfold attempt commit
  cases op s.entries <;> rfl

/-- One step; it reads the entries of the store or writes to it. -/
def Pending.step (writable : Bool) (s : Store) : Pending α → Pending α × Store
  | read next => (next s.entries, s)
  | commit result =>
    let (answer, s) := s.commit writable result
    (done answer, s)
  | done answer => (done answer, s)

namespace Call

/-- What a call makes of the entries that it reads last. Only a draft that is saved is looked at against
the ones read `before`: its id is chosen among those that are free there. -/
def plan : (c : Call) → (before : Members) → Store.Operation c.Answer
  | saveDraft d drawn, before => Mocks.save (d.toMock drawn (Records.ofEntries before).ids)
  | c, _ => c.operation

/-- A call that nothing is done of yet. -/
def pending : (c : Call) → Pending c.Answer
  | saveDraft d drawn => .read fun before => .read fun es => .commit ((saveDraft d drawn).plan before es)
  | deleteAll => .commit (deleteAll.operation [])
  | setGlobal on => .commit ((setGlobal on).operation [])
  | c => .read fun es => .commit (c.operation es)

end Call

/-! ### Two calls -/

/-- The users of a store. -/
inductive Client where
  | one
  | two
  deriving DecidableEq, Repr

/-- A store and how far the call of each client has come. -/
structure Race (c : Client → Call) where
  store : Store
  pending : (i : Client) → Pending (c i).Answer

namespace Race

variable {c : Client → Call}

def start (c : Client → Call) (s : Store) : Race c := ⟨s, fun i => (c i).pending⟩

/-- The next step of one client. -/
def turn (writable : Client → Bool) (r : Race c) (i : Client) : Race c :=
  let (p, s) := (r.pending i).step (writable i) r.store
  ⟨s, Function.update r.pending i p⟩

/-- Steps in an order that is given by whose they are. -/
def run (writable : Client → Bool) (r : Race c) (turns : List Client) : Race c :=
  turns.foldl (turn writable) r

end Race
end MockRedirect
