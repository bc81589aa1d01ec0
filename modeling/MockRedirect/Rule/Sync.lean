import MockRedirect.Rule.Table
import MockRedirect.Store.Mocks
/-! Keeping a rule table in step with the stored mocks. -/
namespace MockRedirect

/-- A rule table and where it is kept besides in memory. -/
structure Engine where
  table : Table
  backing : Backing
  deriving Repr

namespace Engine

def inMemory : Engine := ⟨[], .memory⟩

/-- Opens a table on a file, which may be missing. -/
def openFile (text : Option String) : Except RuleError Engine :=
  match text with
  | none => .ok ⟨[], .file none⟩
  | some t => ((Table.parse t).map fun table => ⟨table, .file text⟩).mapError .json

/-- Work on an engine. What it has done before it fails stays done. -/
abbrev Action (α : Type) := ExceptT RuleError (StateM Engine) α

/-- The answer of an action, with the engine after it. -/
def attempt (act : Action α) (e : Engine) : Except RuleError (α × Engine) :=
  match act.run e with
  | (.ok a, e) => .ok (a, e)
  | (.error cause, _) => .error cause

/-- Writes a table to the file, if there is one and it can be written. -/
def persist (writable : Bool) (table : Table) : Action Unit := do
  match (← get).backing with
  | .memory => pure ()
  | .file _ =>
    if writable then modify fun e => { e with backing := .file (some (Table.fileText table)) }
    else throw .unavailable

/-- Applies a transaction: the table is replaced once it is checked and written. -/
def transact (writable : Bool) (tx : Transaction) : Action Unit := do
  match (← get).table.apply tx with
  | .error fault => throw (.transaction fault)
  | .ok table =>
    persist writable table
    modify fun e => { e with table }

/-- Applies a transaction to an engine with a file that can be written. -/
def apply (e : Engine) (tx : Transaction) : Except RuleError Engine :=
  (attempt (transact true tx) e).map (·.2)

end Engine

/-- What one reconciliation has done. -/
structure Report where
  globalEnabled : Bool
  /-- The managed ids that were installed before. -/
  removed : List Nat
  added : List Nat
  /-- The enabled mocks that got no rule. -/
  skipped : List MockId
  deriving DecidableEq, Repr

namespace Engine

/-- The rules that the entries of a store ask for; none while the switch is off. -/
def planFor (entries : Members) : Plan :=
  if Mocks.isOn entries then Plan.ofMocks (Records.ofEntries entries).mocks else .empty

/-- Replaces the managed rules by those that the entries of a store ask for. -/
def sync (writable : Bool) (entries : Members) : Action Report := do
  let p := planFor entries
  let removed := ((← get).table.map (·.id)).filter isManaged
  transact writable ⟨removed, p.rules.toList⟩
  pure ⟨Mocks.isOn entries, removed, p.rules.toList.map (·.id), p.skipped.toList⟩

/-- Brings an engine with a file that can be written in step with the entries of a store. -/
def reconcile (entries : Members) (e : Engine) : Except RuleError (Report × Engine) :=
  attempt (sync true entries) e

/-- Whether a watcher reconciles after a notice. -/
def concerns : Notice → Bool
  | .change c => c.touches Records.key || c.touches globalKey
  | .lagged _ => true

/-- What a watcher makes of its unread notices: a reconciliation for each that concerns it, whether it
succeeds or not. -/
def follow (entries : Members) (notices : List Notice) (e : Engine) : Engine :=
  notices.foldl (fun e n => if concerns n then ((sync true entries).run e).2 else e) e

end Engine
end MockRedirect
