import MockRedirect.Text.Utf8
/-! Texts taken apart at byte offsets. A slice starts and ends between characters. Work that asks for another one
panics, and so does work that reads a byte behind the text or counts below zero. -/
namespace MockRedirect.Text

/-- The number of bytes of a text. -/
def size (s : List Char) : Nat := (utf8 s).length

/-- What work on byte offsets can panic at. -/
inductive Panic where
  | byte (i : Nat)
  | slice (start stop : Nat)
  | minus (i k : Nat)
  deriving DecidableEq, Repr

/-- Work that may panic. Where a loop goes on for ever, nothing is known of the outcome. -/
abbrev Scan (α : Type) := ExceptT Panic Option α

def byte? (s : List Char) (i : Nat) : Option Nat := (utf8 s)[i]?

def byte (s : List Char) (i : Nat) : Scan Nat :=
  match byte? s i with
  | some b => pure b
  | none => throw (.byte i)

def minus (i k : Nat) : Scan Nat := if k ≤ i then pure (i - k) else throw (.minus i k)

/-- The characters before a byte offset, unless it is inside of one or behind the text. -/
def upTo? : List Char → Nat → Option (List Char)
  | _, 0 => some []
  | [], _ + 1 => none
  | c :: s, n + 1 =>
    if n + 1 < (utf8Char c).length then none else (upTo? s (n + 1 - (utf8Char c).length)).map (c :: ·)

/-- The text between two byte offsets, which must be in order, within the text and between characters. -/
def slice (s : List Char) (start stop : Nat) : Scan (List Char) :=
  match upTo? s start, upTo? s stop with
  | some p, some q => if start ≤ stop then pure (q.drop p.length) else throw (.slice start stop)
  | _, _ => throw (.slice start stop)

/-- The first bytes of a text; all of it, if there are no more. -/
def truncate (s : List Char) (n : Nat) : Scan (List Char) := if n ≤ size s then slice s 0 n else pure s

/-- The offset of the first character with a property. -/
def offset? (p : Char → Bool) (s : List Char) : Option Nat :=
  if s.any p then some (size (s.takeWhile (!p ·))) else none

/-- The offset of the last character with a property. -/
def lastOffset? (p : Char → Bool) (s : List Char) : Option Nat :=
  if s.any p then some (size (s.reverse.dropWhile (!p ·)).tail.reverse) else none

/-- What a round of a loop comes to: a round at another offset, or the result of the loop. -/
inductive Round (σ α : Type) where
  | next (i : Nat) (st : σ)
  | done (result : α)

/-- A loop over the byte offsets of a text, as long as they are within it. -/
structure Loop (σ α : Type) where
  text : List Char
  round : Nat → σ → Scan (Round σ α)
  last : Nat → σ → α

namespace Loop
variable {σ α : Type}

/-- The rounds from an offset on, until one has the result or the offset is not within the text. -/
def run [Nonempty α] (l : Loop σ α) (i : Nat) (st : σ) : Scan α :=
  repeatM (fun (i, st) => do
    if i < size l.text then
      match ← l.round i st with
      | .next i st => pure (.inl (i, st))
      | .done result => pure (.inr result)
    else pure (.inr (l.last i st))) (i, st)

/-- The rounds from an offset on come to an end, with this result. -/
inductive Ends (l : Loop σ α) : Nat → σ → α → Prop where
  | last {i st} : size l.text ≤ i → Ends l i st (l.last i st)
  | done {i st result} : i < size l.text → l.round i st = pure (.done result) → Ends l i st result
  | next {i st j st' result} : i < size l.text → l.round i st = pure (.next j st') → Ends l j st' result →
      Ends l i st result

/-- Each round that has a next one leads there from a smaller offset, and at most one byte past the text. -/
def Advances (l : Loop σ α) : Prop :=
  ∀ i st j st', i < size l.text → l.round i st = pure (.next j st') → i < j ∧ j ≤ size l.text + 1

end Loop

example : size "aé中😀".toList = 10 ∧ upTo? "aé中😀".toList 3 = some "aé".toList ∧
    upTo? "aé中😀".toList 2 = none := by decide +kernel

end MockRedirect.Text
