/-! UTF-8: the bytes of a text, and the text of bytes that may be broken. Bytes are numbers below
256. -/
namespace MockRedirect.Text

/-- The bytes of a character. -/
def utf8Char (c : Char) : List Nat :=
  let n := c.toNat
  if n < 0x80 then [n]
  else if n < 0x800 then [0xC0 + n / 64, 0x80 + n % 64]
  else if n < 0x10000 then [0xE0 + n / 4096, 0x80 + n / 64 % 64, 0x80 + n % 64]
  else [0xF0 + n / 262144, 0x80 + n / 4096 % 64, 0x80 + n / 64 % 64, 0x80 + n % 64]

def utf8 (s : List Char) : List Nat := s.flatMap utf8Char

/-- What a first byte announces: the bounds of the second byte, and how many bytes follow it. -/
def lead? (b : Nat) : Option (Nat × Nat × Nat) :=
  if 0xC2 ≤ b ∧ b ≤ 0xDF then some (0x80, 0xBF, 0)
  else if b = 0xE0 then some (0xA0, 0xBF, 1)
  else if b = 0xED then some (0x80, 0x9F, 1)
  else if 0xE1 ≤ b ∧ b ≤ 0xEF then some (0x80, 0xBF, 1)
  else if b = 0xF0 then some (0x90, 0xBF, 2)
  else if 0xF1 ≤ b ∧ b ≤ 0xF3 then some (0x80, 0xBF, 2)
  else if b = 0xF4 then some (0x80, 0x8F, 2)
  else none

def isTail (b : Nat) : Bool := 0x80 ≤ b && b ≤ 0xBF

/-- The value of a first byte, and of a later one, within its character. -/
def leadValue (b : Nat) : Nat := if b < 0xE0 then b - 0xC0 else if b < 0xF0 then b - 0xE0 else b - 0xF0

def addTail (n b : Nat) : Nat := n * 64 + (b - 0x80)

/-- The front of a byte text. -/
inductive Front where
  | char (c : Char) (size : Nat)
  | bad (size : Nat)
  | cut (size : Nat)
  deriving DecidableEq, Repr

/-- The character that starts with the byte `b`. Otherwise so many bytes are no beginning of one,
or the text ends inside it. -/
def front (b : Nat) (s : List Nat) : Front :=
  if b < 0x80 then .char (Char.ofNat b) 1
  else
    match lead? b with
    | none => .bad 1
    | some (lo, hi, more) =>
      match s with
      | [] => .cut 1
      | t :: s =>
        if t < lo ∨ hi < t then .bad 1
        else
          let n := addTail (leadValue b) t
          if more = 0 then .char (Char.ofNat n) 2
          else
            match s with
            | [] => .cut 2
            | t :: s =>
              if !isTail t then .bad 2
              else
                let n := addTail n t
                if more = 1 then .char (Char.ofNat n) 3
                else
                  match s with
                  | [] => .cut 3
                  | t :: _ => if isTail t then .char (Char.ofNat (addTail n t)) 4 else .bad 3

/-- The text of some bytes, with U+FFFD for every run of them that is no character. -/
def decodeLossy (s : List Nat) : List Char := go s 0
where
  go : List Nat → Nat → List Char
    | [], _ => []
    | _ :: s, n + 1 => go s n
    | b :: s, 0 =>
      match front b s with
      | .char c n => c :: go s (n - 1)
      | .bad n => '\ufffd' :: go s (n - 1)
      | .cut n => '\ufffd' :: go s (n - 1)

/-- Where bytes stop being a text, and how many bytes are wrong there; none if the text is cut. -/
structure Utf8Fault where
  offset : Nat
  size : Option Nat
  deriving DecidableEq, Repr

/-- The text of some bytes, which must be correct. -/
def decode (s : List Nat) : Except Utf8Fault (List Char) := go s 0 0
where
  go : List Nat → Nat → Nat → Except Utf8Fault (List Char)
    | [], _, _ => .ok []
    | _ :: s, n + 1, i => go s n (i + 1)
    | b :: s, 0, i =>
      match front b s with
      | .char c n => (go s (n - 1) (i + 1)).map (c :: ·)
      | .bad n => .error ⟨i, some n⟩
      | .cut _ => .error ⟨i, none⟩

example : decodeLossy (utf8 "aé中😀".toList) = "aé中😀".toList := by decide +kernel
example : decodeLossy [0xE4, 0xB8, 0x41, 0xFF] = "\ufffdA\ufffd".toList := by decide +kernel

end MockRedirect.Text
