/-! Case mapping of the ASCII letters; every other character stays as it is. -/
namespace MockRedirect.Text

def isAsciiUpper (c : Char) : Bool := 'A' ≤ c && c ≤ 'Z'

def isAsciiLower (c : Char) : Bool := 'a' ≤ c && c ≤ 'z'

def isAsciiLetter (c : Char) : Bool := isAsciiUpper c || isAsciiLower c

def isAsciiDigit (c : Char) : Bool := '0' ≤ c && c ≤ '9'

def upper (c : Char) : Char := if isAsciiLower c then Char.ofNat (c.toNat - 32) else c

def lower (c : Char) : Char := if isAsciiUpper c then Char.ofNat (c.toNat + 32) else c

/-- The lower-case ASCII letter that a character is the same as when case does not count. Besides
the capital letters these are the Kelvin sign and the long s. -/
def folded (c : Char) : Char :=
  if c = '\u212a' then 'k' else if c = '\u017f' then 's' else lower c

def uppercase (s : List Char) : List Char := s.map upper

def lowercase (s : List Char) : List Char := s.map lower

def isAscii (s : List Char) : Bool := s.all fun c => c.toNat < 128

/-- The value of a digit, or nothing for another character. -/
def digit? (c : Char) : Option Nat :=
  if isAsciiDigit c then some (c.toNat - '0'.toNat) else none

/-- The value of a hexadecimal digit in either case. -/
def hexDigit? (c : Char) : Option Nat :=
  if isAsciiDigit c then some (c.toNat - '0'.toNat)
  else if 'a' ≤ c && c ≤ 'f' then some (c.toNat - 'a'.toNat + 10)
  else if 'A' ≤ c && c ≤ 'F' then some (c.toNat - 'A'.toNat + 10)
  else none

/-- Digits read as a decimal number. -/
def decimal (s : List Char) : Nat := s.foldl (fun n c => n * 10 + (c.toNat - '0'.toNat)) 0

example : uppercase "aZé1".toList = "AZé1".toList := by decide

end MockRedirect.Text
