import MockRedirect.Rule.Sync
/-! A store that is written to while a watcher and others bring a rule table in step with it. Each read
and each transaction is an event of its own, and events of different origin come in any order. -/
namespace MockRedirect

/-- How far a reconciliation has come. -/
inductive Stage where
  | begun
  /-- The switch was found on; the mocks are read next. -/
  | switchedOn
  /-- The rules are planned; the table is read next. -/
  | planned (p : Plan)
  /-- The managed ids of the table are known; the transaction is next. -/
  | listed (p : Plan) (removed : List Nat)

/-- The reconciliation that holds the lock. -/
structure Reconciliation where
  byWatcher : Bool
  stage : Stage

structure World where
  store : Store
  /-- The notices of writes that are done and not announced yet. -/
  unsent : List Change
  engine : Engine
  /-- How many notices the watcher has taken. -/
  seen : Nat
  /-- Whether the watcher has taken a notice for which its reconciliation has not begun. -/
  waiting : Bool
  running : Option Reconciliation

inductive Event where
  | write (new : Members)
  | announce (i : Nat)
  | receive
  | start (byWatcher : Bool)
  | readSwitch
  | readMocks
  | readTable
  | apply (writable : Bool)

namespace World

/-- What the watcher does next: it takes notices while it neither waits nor reconciles. -/
def receive (w : World) : Option World :=
  if w.waiting || w.running.any (·.byWatcher) then none
  else (w.store.changes.receive? w.seen).map fun (n, seen) =>
    { w with seen, waiting := Engine.concerns n }

/-- Takes the lock, which the watcher only does when it waits for it. -/
def start (w : World) (byWatcher : Bool) : Option World :=
  if w.running.isSome || (byWatcher && !w.waiting) then none
  else some { w with waiting := w.waiting && !byWatcher, running := some ⟨byWatcher, .begun⟩ }

/-- The world after an event, if the event can happen. -/
def step (w : World) : Event → Option World
  | .write new =>
    if new = [] then none
    else some { w with
      store := w.store.write new
      unsent := w.unsent ++ [⟨Members.keys new⟩] }
  | .announce i =>
    (w.unsent[i]?).map fun c =>
      { w with store := w.store.announce c, unsent := w.unsent.eraseIdx i }
  | .receive => w.receive
  | .start byWatcher => w.start byWatcher
  | .readSwitch =>
    match w.running with
    | some ⟨b, .begun⟩ =>
      let stage := if Mocks.isOn w.store.entries then .switchedOn else .planned .empty
      some { w with running := some ⟨b, stage⟩ }
    | _ => none
  | .readMocks =>
    match w.running with
    | some ⟨b, .switchedOn⟩ =>
      let p := Plan.ofMocks (Records.ofEntries w.store.entries).mocks
      some { w with running := some ⟨b, .planned p⟩ }
    | _ => none
  | .readTable =>
    match w.running with
    | some ⟨b, .planned p⟩ =>
      let removed := (w.engine.table.map (·.id)).filter isManaged
      some { w with running := some ⟨b, .listed p removed⟩ }
    | _ => none
  | .apply writable =>
    match w.running with
    | some ⟨_, .listed p removed⟩ =>
      let (_, engine) := (Engine.transact writable ⟨removed, p.rules.toList⟩).run w.engine
      some { w with engine, running := none }
    | _ => none

def run (w : World) (events : List Event) : Option World := events.foldlM step w

/-- Whether the engine accepts the transaction of an event. -/
def Accepts (w : World) : Event → Prop
  | .apply writable =>
    ∀ b p removed, w.running = some ⟨b, .listed p removed⟩ →
      ∃ e, (Engine.transact writable ⟨removed, p.rules.toList⟩).run w.engine = (.ok (), e)
  | _ => True

/-- The worlds that events lead to when all transactions are accepted. -/
inductive Reaches (w : World) : World → Prop where
  | refl : Reaches w w
  | step {v u : World} (ev : Event) : Reaches w v → v.Accepts ev → v.step ev = some u → Reaches w u

/-- A world in which nothing goes on: every write is announced, every notice is taken, and no
reconciliation is running or about to run. -/
structure Quiet (w : World) : Prop where
  unsent : w.unsent = []
  unread : w.store.changes.unread w.seen = []
  waiting : w.waiting = false
  running : w.running = none

end World
end MockRedirect
