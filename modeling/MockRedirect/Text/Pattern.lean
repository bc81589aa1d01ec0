/-! Patterns: what a stretch of text can look like, and whether a text has such a stretch. A text is
searched by keeping, for each of its positions, whether the pattern so far can end there. -/
namespace MockRedirect

/-- What a stretch of text looks like. `start` and `finish` are the empty stretches at the two ends
of a text; `one` is a character of a set, and `many` any run of them. -/
inductive Pattern where
  | empty
  | start
  | finish
  | one (set : Char → Bool)
  | many (set : Char → Bool)
  | seq (first second : Pattern)
  | either (left right : Pattern)

namespace Pattern

/-- Whether a pattern describes the stretch `s` between `pre` and `post`. -/
def Spans : Pattern → List Char → List Char → List Char → Prop
  | empty, _, s, _ => s = []
  | start, pre, s, _ => pre = [] ∧ s = []
  | finish, _, s, post => s = [] ∧ post = []
  | one set, _, s, _ => ∃ c, set c = true ∧ s = [c]
  | many set, _, s, _ => ∀ c ∈ s, set c = true
  | seq p q, pre, s, post =>
    ∃ u v, s = u ++ v ∧ p.Spans pre u (v ++ post) ∧ q.Spans (pre ++ u) v post
  | either p q, pre, s, post => p.Spans pre s post ∨ q.Spans pre s post

/-- Whether a text has a stretch that the pattern describes. -/
def OccursIn (p : Pattern) (s : List Char) : Prop :=
  ∃ pre mid post, s = pre ++ mid ++ post ∧ p.Spans pre mid post

/-! ### Searching -/

/-- The first position, if it is on. -/
def onlyFirst : List Bool → List Bool
  | [] => []
  | m :: marks => m :: marks.map fun _ => false

/-- The last position, if it is on. -/
def onlyLast : List Bool → List Bool
  | [] => []
  | [m] => [m]
  | _ :: marks => false :: onlyLast marks

/-- The positions that a run of characters of a set reaches; `on` tells whether a run that began
earlier is still going on. -/
def spread (set : Char → Bool) (on : Bool) : List Char → List Bool → List Bool
  | s, m :: marks => (on || m) :: spread set ((on || m) && s.head?.any set) s.tail marks
  | _, [] => []

/-- The positions at which a pattern can end, from those at which it can begin. A text has one
position more than it has characters. -/
def ends : Pattern → List Char → List Bool → List Bool
  | empty, _, marks => marks
  | start, _, marks => onlyFirst marks
  | finish, _, marks => onlyLast marks
  | one set, s, marks => false :: List.zipWith (fun c m => m && set c) s marks
  | many set, s, marks => spread set false s marks
  | seq p q, s, marks => q.ends s (p.ends s marks)
  | either p q, s, marks => List.zipWith (· || ·) (p.ends s marks) (q.ends s marks)

/-- Every position of a text. -/
def everywhere (s : List Char) : List Bool := List.replicate (s.length + 1) true

/-- Searches a text for the pattern. -/
def isIn (p : Pattern) (s : List Char) : Bool := (p.ends s (everywhere s)).any id

/-- Patterns one after the other. -/
def chain : List Pattern → Pattern
  | [] => empty
  | p :: ps => seq p (chain ps)

example : (chain [one (· == 'a'), many (· == 'b'), finish]).isIn "cabb".toList = true := by decide

end Pattern
end MockRedirect
