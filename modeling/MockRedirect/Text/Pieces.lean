/-! Cutting a text at a character, and looking for one text inside another. -/
namespace MockRedirect.Text

/-- The pieces between the occurrences of `sep`; there is always at least one. -/
def split (sep : Char) : List Char → List (List Char)
  | [] => [[]]
  | c :: cs =>
    if c = sep then [] :: split sep cs
    else
      match split sep cs with
      | [] => [[c]]
      | p :: ps => (c :: p) :: ps

/-- The pieces put back together with `sep` between them. -/
def join (sep : List Char) : List (List Char) → List Char
  | [] => []
  | [p] => p
  | p :: ps => p ++ sep ++ join sep ps

theorem split_ne_nil (sep : Char) (s : List Char) : split sep s ≠ [] := by
  cases s with
  | nil => simp [split]
  | cons c cs =>
    simp only [split]
    split
    · simp
    · split <;> simp

theorem join_split (sep : Char) (s : List Char) : join [sep] (split sep s) = s := by
  induction s with
  | nil => rfl
  | cons c cs ih =>
    simp only [split]
    cases hs : split sep cs with
    | nil => exact absurd hs (split_ne_nil sep cs)
    | cons p ps =>
      rw [hs] at ih
      by_cases hc : c = sep
      · simp [hc, join, ih]
      · cases ps with
        | nil => simp_all [join]
        | cons q qs => simp_all [join]

/-- The text before the first `sep`. -/
def before (sep : Char) (s : List Char) : List Char := s.takeWhile (· ≠ sep)

/-- The parts before and after the first `sep`. -/
def cut? (sep : Char) : List Char → Option (List Char × List Char)
  | [] => none
  | c :: cs => if c = sep then some ([], cs) else (cut? sep cs).map fun (a, b) => (c :: a, b)

theorem cut?_eq_some {sep : Char} {s a b : List Char} (h : cut? sep s = some (a, b)) :
    s = a ++ sep :: b ∧ sep ∉ a := by
  induction s generalizing a with
  | nil => simp [cut?] at h
  | cons c cs ih =>
    simp only [cut?] at h
    split at h
    · simp_all
    · obtain ⟨⟨x, y⟩, hxy, he⟩ := Option.map_eq_some_iff.1 h
      simp only [Prod.mk.injEq] at he
      obtain ⟨rfl, rfl⟩ := he
      obtain ⟨rfl, hn⟩ := ih hxy
      exact ⟨rfl, by simp_all [eq_comm]⟩

/-- What follows `start`, if the text begins with it. -/
def after? (start : List Char) (s : List Char) : Option (List Char) :=
  match start, s with
  | [], s => some s
  | _ :: _, [] => none
  | p :: ps, c :: cs => if p = c then after? ps cs else none

theorem after?_eq_some {start s r : List Char} : after? start s = some r ↔ s = start ++ r := by
  induction start generalizing s with
  | nil => simp [after?]
  | cons p ps ih =>
    cases s with
    | nil => simp [after?]
    | cons c cs =>
      simp only [after?]
      split
      · simp_all
      · simp_all [eq_comm]

def startsWith (start s : List Char) : Bool := (after? start s).isSome

/-- The text without its last character, if that is `c`. -/
def dropLast? (c : Char) (s : List Char) : Option (List Char) :=
  if s.getLast? = some c then some s.dropLast else none

/-- Whether `part` occurs in the text. -/
def contains (part : List Char) : List Char → Bool
  | [] => part.isEmpty
  | c :: cs => startsWith part (c :: cs) || contains part cs

/-- The text with every occurrence of `part` taken out, from left to right. -/
def removeAll (part : List Char) (s : List Char) : List Char :=
  go s 0
where
  /-- `skip` characters of an occurrence are still to be passed over. -/
  go : List Char → Nat → List Char
    | [], _ => []
    | _ :: cs, skip + 1 => go cs skip
    | c :: cs, 0 => if startsWith part (c :: cs) then go cs (part.length - 1) else c :: go cs 0

example : split ',' "a,,b".toList = ["a".toList, [], "b".toList] := by decide
example : removeAll "ab".toList "xababay".toList = "xay".toList := by decide

end MockRedirect.Text
