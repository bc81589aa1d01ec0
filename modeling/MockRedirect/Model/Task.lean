import MockRedirect.Model.Generator
import MockRedirect.Model.Language
/-! The operations of a generator as tasks that go from one step to the next. Between two steps of
a task other tasks may take theirs. Main functions: `Task.step` for the steps on the generator, and
`Task.run`, which goes on until the task is done or waits for a reply. -/
namespace MockRedirect.Generator

/-- What an operation ends with. -/
inductive Outcome where
  | settled (readiness : Readiness)
  | filled (result : Except GenerationError Json)
  | cancelled (found : Bool)
  deriving Repr

/-- Where a task stands. -/
inductive Task (σ : Type) where
  /-- The model is to be asked how available it is. -/
  | probing
  | fetching
  | opening
  /-- A session was created and is to be installed. -/
  | installing (new : σ)
  /-- A session was replaced and is to be closed. -/
  | closing (old : σ) (next : Readiness)
  | settling (next : Readiness)
  | starting (template : List Char)
  | asking (call : Nat) (session : σ) (prompt : Prompt)
  /-- The prompt was sent, and its reply is to come. -/
  | waiting (call : Nat)
  | ending (call : Nat) (reply : Except GenerationError String)
  | cancelling
  /-- The generator is to be destroyed; its call in flight is told to stop first. -/
  | dismissing
  | emptying
  | done (outcome : Outcome)
  deriving Repr

namespace Task

variable {σ : Type}

/-! ### Steps -/

/-- After a swap the replaced session is closed, if there is one, and then the state is set. -/
def afterSwap (old : Option σ) (next : Readiness) : Task σ :=
  match old with
  | some s => .closing s next
  | none => .settling next

def afterAvailability : Except GenerationError Availability → Task σ
  | .ok .available => .opening
  | .ok .downloadable => .fetching
  | .ok .downloading => .settling .downloading
  | .ok .unavailable => .settling (.unavailable .unsupported)
  | .error _ => .settling (.unavailable .unsupported)

def afterDownload : Except GenerationError Unit → Task σ
  | .ok _ => .settling .downloading
  | .error _ => .settling (.unavailable .downloadFailed)

def afterOpening : Except GenerationError σ → Task σ
  | .ok s => .installing s
  | .error _ => .settling (.unavailable .sessionFailed)

/-- The tree in a reply. -/
def outcomeOf (reply : Except GenerationError String) : Except GenerationError Json := do
  let text ← reply
  (Template.sanitize text.toList).mapError .malformed

/-- The next step of a task, if it is one on the generator. A task that waits takes one only when
its call was told to stop. -/
def step : Task σ → Generator σ → Option (Task σ × Generator σ)
  | installing s, g =>
    let (old, g) := g.swapSession (some s)
    some (afterSwap old .ready, g)
  | settling next, g => some (.done (.settled next), g.settle next)
  | starting template, g =>
    if template.all Text.isBlank then some (.done (.filled (.error .emptyTemplate)), g)
    else
      match g.startCall with
      | .ok (call, s, g) => some (.asking call s (Prompt.ofTemplate template), g)
      | .error reason => some (.done (.filled (.error (.unavailable reason))), g)
  | waiting call, g =>
    if call ∈ g.stopped then some (.ending call (.error .cancelled), g) else none
  | ending call reply, g => some (.done (.filled (outcomeOf reply)), g.endCall call)
  | cancelling, g =>
    let (found, g) := g.cancelCall
    some (.done (.cancelled found), g)
  | dismissing, g => some (.emptying, g.cancelCall.2)
  | emptying, g =>
    let (old, g) := g.swapSession none
    some (afterSwap old (.unavailable .destroyed), g)
  | _, _ => none

/-- The reply to a prompt comes in. -/
def receive (reply : Except GenerationError String) : Task σ → Task σ
  | waiting call => .ending call reply
  | t => t

def outcome? : Task σ → Option Outcome
  | done o => some o
  | _ => none

/-! ### Runs -/

/-- The most steps that are left. -/
def rank : Task σ → Nat
  | probing => 6
  | fetching => 5
  | opening => 5
  | installing _ => 4
  | closing _ _ => 3
  | settling _ => 2
  | starting _ => 5
  | asking _ _ _ => 4
  | waiting _ => 3
  | ending _ _ => 2
  | cancelling => 1
  | dismissing => 5
  | emptying => 4
  | done _ => 0

theorem rank_afterSwap (old : Option σ) (next : Readiness) : (afterSwap old next).rank ≤ 3 := by
  cases old <;> simp [afterSwap, rank]

theorem rank_afterAvailability (a : Except GenerationError Availability) :
    (afterAvailability a : Task σ).rank < 6 := by
  cases a with
  | ok a => cases a <;> simp [afterAvailability, rank]
  | error => simp [afterAvailability, rank]

theorem rank_afterDownload (r : Except GenerationError Unit) :
    (afterDownload r : Task σ).rank < 5 := by
  cases r <;> simp [afterDownload, rank]

theorem rank_afterOpening (r : Except GenerationError σ) : (afterOpening r).rank < 5 := by
  cases r <;> simp [afterOpening, rank]

theorem rank_step {t t' : Task σ} {g g' : Generator σ} (h : t.step g = some (t', g')) :
    t'.rank < t.rank := by
  cases t <;> simp only [step] at h
  case installing s =>
    cases h
    exact Nat.lt_succ_of_le (rank_afterSwap _ _)
  case emptying =>
    cases h
    exact Nat.lt_succ_of_le (rank_afterSwap _ _)
  case starting template =>
    split at h
    · cases h
      simp [rank]
    · split at h <;> cases h <;> simp [rank]
  case waiting call =>
    split at h
    · cases h
      simp [rank]
    · cases h
  case settling | ending | cancelling | dismissing =>
    cases h
    simp [rank]
  all_goals cases h

/-- Goes on with a task, with the model at hand, until it is done or waits for a reply. -/
def run [Monad m] (model : LanguageModel m σ) (t : Task σ) (g : Generator σ) :
    m (Task σ × Generator σ) :=
  match _hs : t.step g with
  | some (t', g') => run model t' g'
  | none =>
    match t with
    | .probing => do run model (afterAvailability (← model.availability)) g
    | .fetching => do run model (afterDownload (← model.requestDownload)) g
    | .opening => do run model (afterOpening (← model.openSession Prompt.role)) g
    | .closing old next => do
      model.close old
      run model (.settling next) g
    | .asking call s p => do
      match ← model.ask s p with
      | some reply => run model (.ending call reply) g
      | none => run model (.waiting call) g
    | t => pure (t, g)
termination_by t.rank
decreasing_by
  · exact rank_step _hs
  · exact rank_afterAvailability _
  · exact rank_afterDownload _
  · exact rank_afterOpening _
  all_goals simp [rank]

end Task

variable {σ : Type}

/-- Asks the model how available it is, and opens a session or requests a download. -/
def probe [Monad m] (model : LanguageModel m σ) (g : Generator σ) :
    m (Readiness × Generator σ) := do
  let (_, g) ← Task.run model .probing g
  pure (g.readiness, g)

/-- Fills in a template, if the reply comes at once; `none` if it is still to come. -/
def generate [Monad m] (model : LanguageModel m σ) (template : List Char) (g : Generator σ) :
    m (Option (Except GenerationError Json) × Generator σ) := do
  match ← Task.run model (.starting template) g with
  | (.done (.filled result), g) => pure (some result, g)
  | (_, g) => pure (none, g)

/-- Stops the call in flight, closes the session and refuses to work until the next probe. -/
def destroy [Monad m] (model : LanguageModel m σ) (g : Generator σ) : m (Generator σ) := do
  let (_, g) ← Task.run model .dismissing g
  pure g

end MockRedirect.Generator
