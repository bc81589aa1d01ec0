import MockRedirect.Text.CombiningClass
import MockRedirect.Text.Composition
/-! The composed normal form of a text: of all ways to write its characters with marks, the one with
the marks in order and as many characters composed as can be. -/
namespace MockRedirect.Text

/-- The parts of a character. A composed base has at most two marks, so that four rounds are
enough. -/
def parts : Nat → Char → List Char
  | 0, c => [c]
  | rounds + 1, c =>
    match decompose? c.toNat with
    | some (a, b) => parts rounds (Char.ofNat a) ++ [Char.ofNat b]
    | none => [c]

/-- Puts a character with its class behind others, the last of them first. A mark moves before
marks of a higher class. -/
def place (m : Char × Nat) : List (Char × Nat) → List (Char × Nat)
  | p :: ps => if 0 < m.2 ∧ m.2 < p.2 then p :: place m ps else m :: p :: ps
  | [] => [m]

/-- The characters with their classes, marks in order. -/
def ordered (s : List Char) : List (Char × Nat) :=
  (s.foldl (fun done c => place (c, combiningClass c) done) []).reverse

/-- Composes a base with what follows. The marks kept, last one first, stay apart from the base; one
of class `last` hides what has no higher class. -/
def composeFrom (base : Char) (last : Nat) (kept : List Char) : List (Char × Nat) → List Char
  | [] => base :: kept.reverse
  | (c, k) :: rest =>
    match if kept = [] ∨ last < k then compose? base.toNat c.toNat else none with
    | some n => composeFrom (Char.ofNat n) last kept rest
    | none =>
      if k = 0 then base :: kept.reverse ++ composeFrom c 0 [] rest
      else composeFrom base k (c :: kept) rest

def normal (s : List Char) : List Char :=
  match ordered (s.flatMap (parts 4)) with
  | [] => []
  | (c, _) :: rest => composeFrom c 0 [] rest

@[simp] theorem normal_nil : normal [] = [] := rfl

example : normal "e\u0301e\u0323\u0302é\u0323".toList = "éệẹ\u0301".toList := by decide +kernel
example : normal "\u1112\u1161\u11ab".toList = "한".toList := by decide +kernel
example : normal "\u0301a\u0315\u0300\u05ae".toList = "\u0301à\u05ae\u0315".toList := by decide +kernel

end MockRedirect.Text
