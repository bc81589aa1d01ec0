import MockRedirect.Decimal.Shortest
import MockRedirect.Text.Case
import MockRedirect.Text.Pieces
/-! Number texts: how a binary64 number is written, and how integers and decimals typed by hand
are read. -/
namespace MockRedirect

/-- The decimal digits of a natural number. -/
def natDigits (n : Nat) : List Char := Nat.toDigits 10 n

/-- An integer with a minus sign when negative. -/
def intText (n : Int) : List Char :=
  match n with
  | .ofNat n => natDigits n
  | .negSucc n => '-' :: natDigits (n + 1)

namespace Binary64

/-- Positional between `1e-5` and `1e16`, with a point in any case; beyond that one digit before
the point and a signed exponent. -/
def layout (d : Digits) : List Char :=
  let ds := natDigits d.digits
  let point : Int := ds.length + d.exponent
  if 0 ≤ d.exponent ∧ point ≤ 16 then ds ++ List.replicate d.exponent.toNat '0' ++ ['.', '0']
  else if 0 < point ∧ point ≤ 16 then ds.take point.toNat ++ '.' :: ds.drop point.toNat
  else if -5 < point ∧ point ≤ 0 then '0' :: '.' :: List.replicate (-point).toNat '0' ++ ds
  else
    let e := point - 1
    let sign := if 0 ≤ e then ['+'] else []
    (match ds with
      | [d] => [d]
      | d :: rest => d :: '.' :: rest
      | [] => []) ++ 'e' :: sign ++ intText e

def text (x : Binary64) : List Char :=
  let body := if x.isZero then ['0', '.', '0'] else layout x.shortest
  if x.negative then '-' :: body else body

end Binary64

/-- Digits with an optional sign. -/
def readInt? (s : List Char) : Option Int :=
  let value (ds : List Char) : Option Nat :=
    if ds ≠ [] ∧ ds.all Text.isAsciiDigit then some (Text.decimal ds) else none
  match s with
  | '-' :: ds => (value ds).map fun n => -(n : Int)
  | '+' :: ds => (value ds).map Int.ofNat
  | ds => (value ds).map Int.ofNat

/-- A signed integer of 64 bits. -/
def readInt64? (s : List Char) : Option Int :=
  (readInt? s).filter fun n => -Nat.pow 2 63 ≤ n && n < Nat.pow 2 63

/-- An unsigned integer of 64 bits; a plus sign is allowed, a minus sign is not. -/
def readNat64? (s : List Char) : Option Nat :=
  match s with
  | '-' :: _ => none
  | s => (readInt? s).bind fun n => if n < Nat.pow 2 64 then some n.toNat else none

/-- A decimal number: digits with at most one point, at least one digit, and perhaps an exponent.
A number beyond the largest binary64 number is refused. -/
def readDecimal? (s : List Char) : Option Binary64 := do
  let (negative, s) := match s with
    | '-' :: r => (true, r)
    | '+' :: r => (false, r)
    | r => (false, r)
  let whole := s.takeWhile Text.isAsciiDigit
  let s := s.dropWhile Text.isAsciiDigit
  let (fractional, s) := match s with
    | '.' :: r => (r.takeWhile Text.isAsciiDigit, r.dropWhile Text.isAsciiDigit)
    | r => ([], r)
  guard (whole ++ fractional ≠ [])
  let exponent : Int ← match s with
    | [] => some 0
    | c :: r => if c = 'e' ∨ c = 'E' then readInt? r else none
  let ds := (whole ++ fractional).dropWhile (· = '0')
  let power := exponent - fractional.length
  if ds = [] ∨ (ds.length : Int) + power < -400 then Binary64.round negative 0 1
  else if 400 < (ds.length : Int) + power then none
  else Binary64.round negative (Text.decimal ds * Nat.pow 10 power.toNat) (Nat.pow 10 (-power).toNat)

example : (readDecimal? "1e-7".toList).map (String.ofList ·.text) = some "1e-7" := by decide +kernel
example : (readDecimal? "123456789.125".toList).map (String.ofList ·.text) = some "123456789.125" := by
  decide +kernel
example : (readDecimal? "18446744073709551615".toList).map (String.ofList ·.text) =
    some "1.8446744073709552e+19" := by decide +kernel
example : (readDecimal? "1e21".toList).map (String.ofList ·.text) = some "1e+21" := by decide +kernel

end MockRedirect
