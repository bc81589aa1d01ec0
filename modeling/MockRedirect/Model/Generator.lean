import MockRedirect.Model.Error
/-! What a generator keeps between the steps of its operations, and the steps that change it. Each
of them is atomic. -/
namespace MockRedirect

inductive Readiness where
  | unprobed
  | ready
  | downloading
  | unavailable (reason : UnavailableReason)
  deriving DecidableEq, Repr

/-- The reason to give when a generator in this state, or one without a session, is to be used. -/
def Readiness.reason : Readiness → UnavailableReason
  | unprobed => .notProbed
  | ready => .notProbed
  | downloading => .downloading
  | unavailable reason => reason

structure Generator (σ : Type) where
  readiness : Readiness
  session : Option σ
  /-- The newest call, unless it has ended or was told to stop. -/
  inFlight : Option Nat
  nextCall : Nat
  /-- The calls that were told to stop and have not ended yet. -/
  stopped : List Nat
  deriving Repr

namespace Generator

variable {σ : Type}

def new : Generator σ := ⟨.unprobed, none, none, 0, []⟩

/-- Starts a call in the installed session; it becomes the one in flight. -/
def startCall (g : Generator σ) : Except UnavailableReason (Nat × σ × Generator σ) :=
  match g.readiness, g.session with
  | .ready, some s =>
    .ok (g.nextCall, s, { g with inFlight := some g.nextCall, nextCall := g.nextCall + 1 })
  | readiness, _ => .error readiness.reason

/-- Ends a call. It leaves the place in flight if it still has it. -/
def endCall (call : Nat) (g : Generator σ) : Generator σ :=
  { g with
    inFlight := if g.inFlight = some call then none else g.inFlight
    stopped := g.stopped.filter (· ≠ call) }

/-- Tells the call in flight to stop; says whether there was one. -/
def cancelCall (g : Generator σ) : Bool × Generator σ :=
  match g.inFlight with
  | some call => (true, { g with inFlight := none, stopped := call :: g.stopped })
  | none => (false, g)

/-- Puts a session, or none, in the place of the installed one, which is given back. -/
def swapSession (new : Option σ) (g : Generator σ) : Option σ × Generator σ :=
  (g.session, { g with session := new })

def settle (readiness : Readiness) (g : Generator σ) : Generator σ := { g with readiness }

@[simp] theorem startCall_new : (new : Generator σ).startCall = .error .notProbed := rfl

theorem startCall_of_ready {g : Generator σ} {s : σ} (hr : g.readiness = .ready)
    (hs : g.session = some s) :
    g.startCall =
      .ok (g.nextCall, s, { g with inFlight := some g.nextCall, nextCall := g.nextCall + 1 }) := by
  simp [startCall, hr, hs]

end Generator
end MockRedirect
