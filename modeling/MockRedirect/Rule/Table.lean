import MockRedirect.Rule.Plan
/-! Rule tables: transactions, and the rule that decides about a request. -/
namespace MockRedirect

/-- A request as the rules see it. -/
structure Request where
  url : String
  method : RequestMethod
  resourceType : ResourceType
  deriving DecidableEq, Repr

/-- The rules that are installed, in order. -/
abbrev Table := List Rule

namespace Table

/-! ### Transactions -/

/-- The ids in use once one more rule is added. -/
def accept (used : Std.HashSet Nat) (r : Rule) : Except TransactionFault (Std.HashSet Nat) :=
  if r.id = 0 then .error .zeroId
  else if used.contains r.id then .error (.idInUse r.id)
  else
    match UrlFilter.parse r.condition.urlFilter with
    | .error e => .error (.badFilter r.id e)
    | .ok _ => .ok (used.insert r.id)

/-- The rules that are left when some ids are removed. -/
def remove (t : Table) (ids : List Nat) : Table :=
  let removed := Std.HashSet.ofList ids
  t.filter fun r => !removed.contains r.id

/-- The rules by id; those with the same id stay in order. -/
def sorted (t : Table) : Table := t.mergeSort fun a b => a.id ≤ b.id

/-- Adds rules to those that stay; the new table is sorted. -/
def add (kept : Table) (added : List Rule) : Except TransactionFault Table := do
  let _ ← added.foldlM accept (Std.HashSet.ofList (kept.map (·.id)))
  let next := kept ++ added
  if ruleLimit < next.length then .error (.tooMany next.length)
  .ok (sorted next)

/-- Removes and then adds rules. -/
def apply (t : Table) (tx : Transaction) : Except TransactionFault Table :=
  (t.remove tx.removed).add tx.added

/-! ### Requests -/

/-- Whether the types, the methods and the filter of a rule accept a request. -/
def admits (r : Rule) (q : Request) : Except FilterError Bool :=
  let c := r.condition
  if c.resourceTypes ≠ [] ∧ q.resourceType ∉ c.resourceTypes then .ok false
  else if c.requestMethods ≠ [] ∧ q.method ∉ c.requestMethods then .ok false
  else (UrlFilter.parse c.urlFilter).map fun f => f.admits q.url

/-- The better of two rules: the higher priority wins, then the lower id, then the first. -/
def better (best : Option Rule) (r : Rule) : Rule :=
  match best with
  | some b => if r.priority < b.priority ∨ (b.priority = r.priority ∧ b.id ≤ r.id) then b else r
  | none => r

/-- The rule that decides about a request, if there is one. -/
def evaluate (t : Table) (q : Request) : Except FilterError (Option Rule) :=
  t.foldlM (fun best r => do
    if ← admits r q then .ok (some (better best r)) else .ok best) none

/-! ### Files -/

/-- The rules in the text of a table file; a blank file holds none. -/
def parse (text : String) : Except JsonError Table :=
  if Text.isBlankText text then .ok [] else Rule.decoder.list.parse text.toList

def fileText (t : Table) : String := (Json.arr (t.map Rule.toJson)).prettyText ++ "\n"

end Table
end MockRedirect
