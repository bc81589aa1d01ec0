import MockRedirect.Model.Task
/-! A generator in the hands of any number of tasks. Each task goes on by itself, and the steps of
different tasks come in any order; what the model answers, and when, is open. Sessions and calls are
numbered from 0 without a bound, in the order in which they are created and started. -/
namespace MockRedirect.Generator

/-- What a generator can be asked to do. -/
inductive Errand where
  | probe
  | generate (template : List Char)
  | cancel
  | destroy
  deriving DecidableEq, Repr

/-- Where the task for an errand begins. -/
def Errand.task : Errand → Task Nat
  | probe => .probing
  | generate template => .starting template
  | cancel => .cancelling
  | destroy => .dismissing

/-- An errand that was called for, and how far it has come. -/
structure Job where
  errand : Errand
  task : Task Nat

/-- What has happened to the calls, newest first. No step depends on it. -/
structure History where
  /-- The calls that found the generator ready. -/
  started : List Nat
  ended : List Nat
  /-- The calls that were told to stop. -/
  stopped : List Nat
  deriving DecidableEq, Repr

namespace History

/-- Adds what a step of a task has done, as seen from the task and the generator before and after. -/
def record (h : History) (t t' : Task Nat) (g g' : Generator Nat) : History where
  started := match t, t' with
    | .starting _, .asking call _ _ => call :: h.started
    | _, _ => h.started
  ended := match t with
    | .ending call _ => call :: h.ended
    | _ => h.ended
  stopped := g'.stopped.filter (· ∉ g.stopped) ++ h.stopped

/-- The newest call that has started, if it has neither ended nor been told to stop. -/
def Running (h : History) (call : Nat) : Prop :=
  h.started.head? = some call ∧ call ∉ h.ended ∧ call ∉ h.stopped

end History

structure Shared where
  generator : Generator Nat
  jobs : List Job
  /-- How many sessions the model has created. -/
  created : Nat
  /-- The sessions that were closed, newest first. -/
  closed : List Nat
  history : History

/-- What a task goes on with: its turn at the generator, or an answer of the model. -/
inductive Cue where
  | turn
  | availability (answer : Except GenerationError Availability)
  | download (answer : Except GenerationError Unit)
  | session
  | noSession (error : GenerationError)
  | closed
  /-- The prompt is on its way. -/
  | sent
  | reply (answer : Except GenerationError String)

inductive Move where
  | call (errand : Errand)
  | go (i : Nat) (cue : Cue)

namespace Shared

def new : Shared := ⟨.new, [], 0, [], ⟨[], [], []⟩⟩

/-- Where a task goes on a cue, and all that changes besides, if the task waits for that cue. -/
def advance (w : Shared) : Task Nat → Cue → Option (Task Nat × Shared)
  | t, .turn => (t.step w.generator).map fun (t', g) =>
    (t', { w with generator := g, history := w.history.record t t' w.generator g })
  | .probing, .availability answer => some (.afterAvailability answer, w)
  | .fetching, .download answer => some (.afterDownload answer, w)
  | .opening, .session => some (.afterOpening (.ok w.created), { w with created := w.created + 1 })
  | .opening, .noSession error => some (.afterOpening (.error error), w)
  | .closing s next, .closed => some (.settling next, { w with closed := s :: w.closed })
  | .asking call _ _, .sent => some (.waiting call, w)
  | .waiting call, .reply answer => some (.ending call answer, w)
  | _, _ => none

def step (w : Shared) : Move → Option Shared
  | .call errand => some { w with jobs := w.jobs ++ [⟨errand, errand.task⟩] }
  | .go i cue => do
    let j ← w.jobs[i]?
    let (t, w') ← w.advance j.task cue
    some { w' with jobs := w.jobs.set i ⟨j.errand, t⟩ }

def run (w : Shared) (moves : List Move) : Option Shared := moves.foldlM step w

/-- What moves of a kind lead to. -/
inductive Reaches (kind : Move → Prop) (w : Shared) : Shared → Prop where
  | refl : Reaches kind w w
  | step {v u : Shared} (m : Move) : Reaches kind w v → kind m → v.step m = some u →
    Reaches kind w u

/-- What can become of a new generator. -/
def Reachable (w : Shared) : Prop := new.Reaches (fun _ => True) w

end Shared
end MockRedirect.Generator
