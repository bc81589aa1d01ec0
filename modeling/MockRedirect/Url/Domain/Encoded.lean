import MockRedirect.Text.Case
/-! Encoded labels: ASCII text that stands for a label with other characters. -/
namespace MockRedirect.Domain
open Text

/-- The value of a digit of an encoded label: letters, then figures. -/
def codeDigit? (c : Char) : Option Nat :=
  if isAsciiLower c then some (c.toNat - 'a'.toNat)
  else if isAsciiDigit c then some (c.toNat - '0'.toNat + 26)
  else none

/-- The bias for the next number of an encoded label. -/
def adapt (delta count : Nat) (first : Bool) : Nat :=
  let d := if first then delta / 700 else delta / 2
  go 20 (d + d / count) 0
where
  go : Nat → Nat → Nat → Nat
    | 0, _, k => k
    | fuel + 1, d, k => if 455 < d then go fuel (d / 35) (k + 36) else k + 36 * d / (d + 38)

/-- A number of variable length: its digits up to one below the threshold, which depends on the
bias. Gives the number and the digits left. Number and weight have 32 bits. -/
def readDelta (bias : Nat) : List Char → Nat → Nat → Nat → Option (Nat × List Char)
  | [], _, _, _ => none
  | c :: cs, i, w, k => do
    let d ← codeDigit? c
    let i := i + d * w
    if Nat.pow 2 32 ≤ i then none
    let t := if k ≤ bias then 1 else if bias + 26 ≤ k then 26 else k - bias
    if d < t then some (i, cs)
    else if Nat.pow 2 32 ≤ w * (36 - t) then none
    else readDelta bias cs i (w * (36 - t)) (k + 36)

/-- Inserts the code points of an encoded label into its ASCII part. -/
def insertAll : Nat → List Char → List Char → Nat → Nat → Nat → Option (List Char)
  | _, [], out, _, _, _ => some out
  | 0, _, _, _, _, _ => none
  | fuel + 1, code, out, n, i, bias => do
    let (j, rest) ← readDelta bias code i 1 36
    let count := out.length + 1
    let n := n + j / count
    if 0x110000 ≤ n ∨ (0xD800 ≤ n ∧ n ≤ 0xDFFF) then none
    let place := j % count
    insertAll fuel rest (out.take place ++ Char.ofNat n :: out.drop place) n (place + 1)
      (adapt (j - i) count (i == 0))

/-- The longest code that is read, so that inserting stays cheap. -/
def codeLimit : Nat := 2000

/-- The label that a code stands for. A last hyphen parts its ASCII characters from its numbers;
there is something on either side. -/
def decodeLabel? (s : List Char) : Option (List Char) :=
  let tail := (s.reverse.takeWhile (· ≠ '-')).reverse
  let ascii := s.take (s.length - tail.length - 1)
  if codeLimit < s.length ∨ s.contains '-' ∧ (tail = [] ∨ ascii = []) then none
  else insertAll (tail.length + 1) tail ascii 0x80 0 72

example : decodeLabel? "mnchen-3ya".toList = some "münchen".toList := by decide +kernel
example : decodeLabel? "4dbc".toList = some "אב".toList := by decide +kernel
example : ["mnchen-", "-3ya", "3", "m-3y"].map (decodeLabel? ·.toList) =
    [none, none, none, none] := by decide +kernel

end MockRedirect.Domain
