/-! Change notices: a channel keeps the newest of them, and a reader that falls behind is told how
many it has missed. -/
namespace MockRedirect

/-- The keys that one write has set. -/
structure Change where
  keys : List String
  deriving DecidableEq, Repr

def Change.touches (c : Change) (key : String) : Bool := c.keys.contains key

/-- What a reader is given. -/
inductive Notice where
  | change (c : Change)
  | lagged (missed : Nat)
  deriving DecidableEq, Repr

/-- How many changes a channel keeps. -/
def Channel.capacity : Nat := 64

/-- The number of changes ever sent, and the newest of them, oldest first. -/
structure Channel where
  sent : Nat
  recent : List Change
  kept : recent.length = min sent Channel.capacity
  deriving DecidableEq, Repr

namespace Channel

def empty : Channel := ⟨0, [], rfl⟩

def send (ch : Channel) (c : Change) : Channel where
  sent := ch.sent + 1
  recent := (ch.recent ++ [c]).drop (ch.recent.length + 1 - capacity)
  kept := by
    have h := ch.kept
    rw [List.length_drop, List.length_append, List.length_singleton]
    omega

/-- The number of changes that are no longer kept. -/
def dropped (ch : Channel) : Nat := ch.sent - ch.recent.length

/-- What a reader that has taken `seen` changes is given next, and its new count. -/
def receive? (ch : Channel) (seen : Nat) : Option (Notice × Nat) :=
  if seen < ch.dropped then some (.lagged (ch.dropped - seen), ch.dropped)
  else (ch.recent[seen - ch.dropped]?).map fun c => (.change c, seen + 1)

/-- Everything that a reader has not taken yet. -/
def unread (ch : Channel) (seen : Nat) : List Notice :=
  let lost := ch.dropped - seen
  (if lost = 0 then [] else [.lagged lost]) ++ (ch.recent.drop (seen - ch.dropped)).map .change

end Channel
end MockRedirect
