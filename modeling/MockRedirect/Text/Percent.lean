import MockRedirect.Text.Case
import MockRedirect.Text.Utf8
/-! Percent-encoding. -/
namespace MockRedirect.Text

/-- An upper-case hexadecimal digit of a number below 16. -/
def hexUpper (n : Nat) : Char := if n < 10 then Char.ofNat (48 + n) else Char.ofNat (55 + n)

def percentByte (b : Nat) : List Char := ['%', hexUpper (b / 16), hexUpper (b % 16)]

/-- The text with each character that is not kept replaced by its bytes in hexadecimal. -/
def percentEncode (keep : Char → Bool) (s : List Char) : List Char :=
  s.flatMap fun c => if keep c then [c] else (utf8Char c).flatMap percentByte

/-- The value of a byte that is a hexadecimal digit. -/
def hexByte? (b : Nat) : Option Nat := if b < 0x80 then hexDigit? (Char.ofNat b) else none

/-- The bytes with each `%` and two hexadecimal digits replaced by the byte they stand for; any
other `%` is kept. -/
def percentDecode : List Nat → List Nat
  | 0x25 :: a :: b :: s =>
    match hexByte? a, hexByte? b with
    | some x, some y => (x * 16 + y) :: percentDecode s
    | _, _ => 0x25 :: percentDecode (a :: b :: s)
  | b :: s => b :: percentDecode s
  | [] => []

/-- The characters that need no encoding anywhere in a URL. -/
def isUnreserved (c : Char) : Bool :=
  isAsciiLetter c || isAsciiDigit c || c == '-' || c == '_' || c == '.' || c == '~'

example : String.ofList (percentEncode isUnreserved "a b/é".toList) = "a%20b%2F%C3%A9" := by
  decide +kernel
example : percentDecode (utf8 "%41%4x%".toList) = utf8 "A%4x%".toList := by decide +kernel

end MockRedirect.Text
