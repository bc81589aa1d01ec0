/-! Sets of code points given by the bounds at which membership changes. -/
namespace MockRedirect.Text

/-- Whether an odd number of the bounds, which must be in order, are at most `n`. -/
def withinBounds (n : Nat) : List Nat → Bool
  | [] => false
  | b :: bs => if b ≤ n then !withinBounds n bs else false

def ascending : List Nat → Bool
  | a :: b :: rest => a < b && ascending (b :: rest)
  | _ => true

example : [1, 2, 3, 4, 5].map (withinBounds · [2, 4]) = [false, true, true, false, false] := by decide
example : ascending [2, 4, 9] = true ∧ ascending [2, 4, 4] = false := by decide

end MockRedirect.Text
