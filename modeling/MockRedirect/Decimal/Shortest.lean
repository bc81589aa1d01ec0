import MockRedirect.Decimal.Binary64
/-! The fewest decimal digits that read back as the same binary64 number. -/
namespace MockRedirect.Binary64

/-- A decimal grid point `digits · 10 ^ exponent`. -/
structure Digits where
  digits : Nat
  exponent : Int
  deriving DecidableEq, Repr

/-- Four times the size of `x`, and the two ends of the interval that rounds to `x`, in units of
`2 ^ (exponent - 2)`. Below a power of two the neighbour is only half as far away. -/
def interval (x : Binary64) : Nat × Nat × Nat :=
  let v := 4 * x.mantissa
  let below := if x.mantissa = Nat.pow 2 52 ∧ -1074 < x.exponent then 1 else 2
  (v - below, v, v + 2)

/-- The point nearest to `x` on the grid of multiples of `10 ^ p`, if one rounds to `x`. Of two
equally near points the even one is taken. -/
def onGrid? (x : Binary64) (p : Int) : Option Nat :=
  let (lo, v, hi) := interval x
  let e := x.exponent - 2
  let scale := Nat.pow 2 e.toNat * Nat.pow 10 (-p).toNat
  let unit := Nat.pow 2 (-e).toNat * Nat.pow 10 p.toNat
  let inside (d : Nat) : Bool :=
    if x.mantissa % 2 = 0 then lo * scale ≤ d * unit && d * unit ≤ hi * scale
    else lo * scale < d * unit && d * unit < hi * scale
  let d := v * scale / unit
  let r := v * scale % unit
  let upFirst := unit < 2 * r || (unit == 2 * r && d % 2 == 1)
  let (near, far) := if upFirst then (d + 1, d) else (d, d + 1)
  if inside near then some near else if inside far then some far else none

/-- The coarsest grid from `10 ^ p` downwards that holds a point rounding to `x`; at most
`steps` grids are tried. -/
def search (x : Binary64) (p : Int) : Nat → Digits
  | 0 => ⟨x.magnitude, 0⟩
  | steps + 1 =>
    match onGrid? x p with
    | some d => ⟨d, p⟩
    | none => search x (p - 1) steps

/-- The shortest digits of a nonzero number; seventeen always suffice. -/
def shortest (x : Binary64) : Digits :=
  let bits : Int := (x.mantissa.log2 : Int) + x.exponent + 1
  search x (bits * 30103 / 100000 + 1) 22

example : shortest ⟨false, 1, -1074⟩ = ⟨5, -324⟩ := by decide +kernel
example : (round false 3 10).map shortest = some ⟨3, -1⟩ := by decide +kernel
example : (round false (Nat.pow 2 64) 1).map shortest = some ⟨18446744073709552, 3⟩ := by decide +kernel

end MockRedirect.Binary64
