/-! Finite binary64 numbers in exact arithmetic: rounding to nearest, products and quotients. -/
namespace MockRedirect

/-- The number `± mantissa · 2 ^ exponent`. Numbers made by `Binary64.round` have the largest
exponent that keeps the mantissa below `2 ^ 53`, so equal numbers have equal fields. -/
structure Binary64 where
  negative : Bool
  mantissa : Nat
  exponent : Int
  deriving DecidableEq, Repr, Inhabited

namespace Binary64

/-- The quotient to the nearest integer; a half goes to the even neighbour. -/
def divNearest (num den : Nat) : Nat :=
  let q := num / den
  let r := num % den
  if 2 * r < den then q else if den < 2 * r then q + 1 else if q % 2 = 0 then q else q + 1

/-- The exponent of the leading bit of `num / den`. -/
def leadingBit (num den : Nat) : Int :=
  let k : Int := (num.log2 : Int) - (den.log2 : Int)
  if den * Nat.pow 2 k.toNat ≤ num * Nat.pow 2 (-k).toNat then k else k - 1

/-- The nearest number to `± num / den`; nothing when that lies beyond the largest one. -/
def round (negative : Bool) (num den : Nat) : Option Binary64 :=
  if num = 0 then some ⟨negative, 0, -1074⟩
  else
    let e := max (leadingBit num den - 52) (-1074)
    let m := divNearest (num * Nat.pow 2 (-e).toNat) (den * Nat.pow 2 e.toNat)
    let x : Binary64 :=
      if m = Nat.pow 2 53 then ⟨negative, Nat.pow 2 52, e + 1⟩ else ⟨negative, m, e⟩
    if 971 < x.exponent then none else some x

def isZero (x : Binary64) : Bool := x.mantissa == 0

/-- The size of a number as a fraction. -/
def fraction (x : Binary64) : Nat × Nat :=
  (x.mantissa * Nat.pow 2 x.exponent.toNat, Nat.pow 2 (-x.exponent).toNat)

/-- `x · 10 ^ n`, where the power itself is rounded first. -/
def mulPow10 (x : Binary64) (n : Nat) : Option Binary64 := do
  let p ← round false (Nat.pow 10 n) 1
  let (a, b) := x.fraction
  let (c, d) := p.fraction
  round x.negative (a * c) (b * d)

/-- `x / 10 ^ n`, where the power itself is rounded first. -/
def divPow10 (x : Binary64) (n : Nat) : Option Binary64 := do
  let p ← round false (Nat.pow 10 n) 1
  let (a, b) := x.fraction
  let (c, d) := p.fraction
  round x.negative (a * d) (b * c)

/-- The integer part of the size of a number. -/
def magnitude (x : Binary64) : Nat :=
  let (a, b) := x.fraction
  a / b

example : round false 1 10 = some ⟨false, 7205759403792794, -56⟩ := by decide +kernel
example : round false (Nat.pow 2 1024) 1 = none := by decide +kernel

end Binary64
end MockRedirect
