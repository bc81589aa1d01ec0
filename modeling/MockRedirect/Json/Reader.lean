import MockRedirect.Json.Fault
import MockRedirect.Json.Writer
/-! Reading JSON text from the front, with the place of the first fault. -/
namespace MockRedirect

/-- Why reading stopped: a fault with so many bytes of the text still left, or a fault whose place
the enclosing array or object settles. -/
inductive Refusal where
  | placed (fault : Fault) (left : Nat)
  | unplaced (fault : Fault) (rest : List Char)
  deriving Repr

/-- The outcome of reading; a reader gives what it took and the rest of the text. -/
abbrev Reading := Except Refusal

namespace Json

/-- A fault noticed right here. -/
def hereAt (fault : Fault) (s : List Char) : Refusal := .placed fault (byteSize s)

/-- A fault in the next byte, which counts as read. -/
def nextAt (fault : Fault) (s : List Char) : Refusal := .placed fault (byteSize s - 1)

def isSpace (c : Char) : Bool := c == ' ' || c == '\n' || c == '\t' || c == '\r'

def skipSpace (s : List Char) : List Char := s.dropWhile isSpace

/-! ### Words and strings -/

/-- The rest of a word such as `null`. -/
def readWord : List Char → List Char → Reading (List Char)
  | [], s => .ok s
  | _ :: _, [] => .error (hereAt .endInValue [])
  | w :: ws, c :: cs => if w = c then readWord ws cs else .error (nextAt .expectedWord (c :: cs))

/-- The fault of a text that does not begin with four hexadecimal digits; four bytes are taken
together. -/
def badHex (s : List Char) : Refusal :=
  if 4 ≤ byteSize s then .placed .badEscape (byteSize s - 4) else .placed .endInString 0

/-- Four hexadecimal digits. -/
def readHex4 (s : List Char) : Reading (Nat × List Char) :=
  match s with
  | a :: b :: c :: d :: rest =>
    match Text.hexDigit? a, Text.hexDigit? b, Text.hexDigit? c, Text.hexDigit? d with
    | some a, some b, some c, some d => .ok (((a * 16 + b) * 16 + c) * 16 + d, rest)
    | _, _, _, _ => .error (badHex s)
  | s => .error (badHex s)

def isLeadSurrogate (n : Nat) : Bool := 0xD800 ≤ n && n ≤ 0xDBFF

def isTailSurrogate (n : Nat) : Bool := 0xDC00 ≤ n && n ≤ 0xDFFF

/-- The second half of a surrogate pair, which has to follow the first one at once. -/
def readTail (lead : Nat) (s : List Char) : Reading (Char × List Char) :=
  match s with
  | '\\' :: 'u' :: rest => do
    let (tail, rest) ← readHex4 rest
    if isTailSurrogate tail then
      .ok (Char.ofNat ((lead - 0xD800) * 1024 + (tail - 0xDC00) + 0x10000), rest)
    else .error (hereAt .loneSurrogate rest)
  | [] => .error (hereAt .endInString [])
  | ['\\'] => .error (hereAt .endInString [])
  | '\\' :: rest => .error (nextAt .halfSurrogate rest)
  | s => .error (nextAt .halfSurrogate s)

/-- The character that a one-letter escape stands for. -/
def shortEscape? (c : Char) : Option Char :=
  if c = '"' ∨ c = '\\' ∨ c = '/' then some c
  else if c = 'b' then some '\x08'
  else if c = 'f' then some '\x0c'
  else if c = 'n' then some '\n'
  else if c = 'r' then some '\r'
  else if c = 't' then some '\t'
  else none

/-- What follows a backslash. -/
def readEscape (s : List Char) : Reading (Char × List Char) :=
  match s with
  | [] => .error (hereAt .endInString [])
  | 'u' :: rest => do
    let (n, rest) ← readHex4 rest
    if isTailSurrogate n then .error (hereAt .loneSurrogate rest)
    else if isLeadSurrogate n then readTail n rest
    else .ok (Char.ofNat n, rest)
  | c :: rest =>
    match shortEscape? c with
    | some d => .ok (d, rest)
    | none => .error (nextAt .badEscape (c :: rest))

/-- The characters up to the closing quote. The recursion is on a text no shorter than the one to read. -/
def readStringBody : List Char → List Char → Reading (List Char × List Char)
  | _, [] => .error (hereAt .endInString [])
  | [], s => .error (hereAt .endInString s)
  | _ :: bound, c :: rest =>
    if c = '"' then .ok ([], rest)
    else if c = '\\' then do
      let (d, rest) ← readEscape rest
      let (ds, rest) ← readStringBody bound rest
      .ok (d :: ds, rest)
    else if c.toNat < 32 then .error (hereAt .controlCharacter rest)
    else do
      let (ds, rest) ← readStringBody bound rest
      .ok (c :: ds, rest)

/-- A string whose opening quote has been read. -/
def readString (s : List Char) : Reading (String × List Char) := do
  let (cs, rest) ← readStringBody s s
  .ok (String.ofList cs, rest)

/-! ### Numbers -/

/-- Digits added to a number while it stays below `2 ^ 64`; the digits that no longer fit are
given back. -/
def addDigits (n : Nat) : List Char → Nat × List Char
  | [] => (n, [])
  | d :: ds =>
    let m := n * 10 + (d.toNat - '0'.toNat)
    if Nat.pow 2 64 ≤ m then (n, d :: ds) else addDigits m ds

/-- `± n · 10 ^ e` by one rounded product or quotient; below `10 ^ -308` the quotient is taken in
two steps. Nothing if the number is too large. -/
def scaled (negative : Bool) (n : Nat) (e : Int) : Option Binary64 := do
  let x ← Binary64.round negative n 1
  if x.isZero then some x
  else if 0 ≤ e then if e ≤ 308 then x.mulPow10 e.toNat else none
  else if -308 ≤ e then x.divPow10 (-e).toNat
  else
    let y ← x.divPow10 308
    if -616 ≤ e then y.divPow10 (-e - 308).toNat else Binary64.round negative 0 1

def floatOf (negative : Bool) (n : Nat) (e : Int) (rest : List Char) : Reading (Json × List Char) :=
  match scaled negative n e with
  | some x => .ok (.float x, rest)
  | none => .error (hereAt .numberTooLarge rest)

/-- The digits of an exponent, and what follows when they grow beyond `2 ^ 31`. -/
def exponentDigits (e : Nat) : List Char → Except (List Char) Nat
  | [] => .ok e
  | d :: ds =>
    let m := e * 10 + (d.toNat - '0'.toNat)
    if Nat.pow 2 31 ≤ m then .error ds else exponentDigits m ds

/-- The exponent of `n · 10 ^ e` after its sign. -/
def readPower (negative : Bool) (n : Nat) (e : Int) (down : Bool) (s : List Char) :
    Reading (Json × List Char) :=
  match s with
  | [] => .error (hereAt .endInValue [])
  | c :: _ =>
    if !Text.isAsciiDigit c then .error (nextAt .badNumber s)
    else
      let rest := s.dropWhile Text.isAsciiDigit
      match exponentDigits 0 (s.takeWhile Text.isAsciiDigit) with
      | .ok k => floatOf negative n (if down then e - k else e + k) rest
      | .error unread =>
        if n ≠ 0 && !down then .error (hereAt .numberTooLarge (unread ++ rest))
        else .ok (.float ⟨negative, 0, -1074⟩, rest)

/-- The exponent of `n · 10 ^ e`, its `e` already read. -/
def readExponent (negative : Bool) (n : Nat) (e : Int) (s : List Char) : Reading (Json × List Char) :=
  match s with
  | '+' :: rest => readPower negative n e false rest
  | '-' :: rest => readPower negative n e true rest
  | rest => readPower negative n e false rest

/-- What an exponent makes of `n · 10 ^ e`; without one the number is `plain`. -/
def readScale (negative : Bool) (n : Nat) (e : Int) (s : List Char)
    (plain : Reading (Json × List Char)) : Reading (Json × List Char) :=
  match s with
  | 'e' :: rest => readExponent negative n e rest
  | 'E' :: rest => readExponent negative n e rest
  | _ => plain

/-- `± n · 10 ^ e`, an integer if it is small enough. -/
def wholeNumber (negative : Bool) (n : Nat) (e : Nat) (rest : List Char) : Reading (Json × List Char) :=
  if e ≠ 0 then floatOf negative n e rest
  else if !negative then .ok (.int n, rest)
  else if 1 ≤ n ∧ n ≤ Nat.pow 2 63 then .ok (.int (-n), rest)
  else floatOf true n 0 rest

/-- What may follow the integer part `n · 10 ^ e` of a number. -/
def readFraction (negative : Bool) (n : Nat) (e : Nat) (s : List Char) : Reading (Json × List Char) :=
  match s with
  | '.' :: s =>
    let ds := s.takeWhile Text.isAsciiDigit
    let rest := s.dropWhile Text.isAsciiDigit
    if ds = [] then
      .error (if rest = [] then hereAt .endInValue [] else nextAt .badNumber rest)
    else
      let (n, unread) := addDigits n ds
      let e : Int := (e : Int) - (ds.length - unread.length : Nat)
      readScale negative n e rest (floatOf negative n e rest)
  | s => readScale negative n e s (wholeNumber negative n e s)

/-- A number after its sign. -/
def readNumber (negative : Bool) (s : List Char) : Reading (Json × List Char) :=
  match s with
  | [] => .error (hereAt .endInValue [])
  | c :: rest =>
    if !Text.isAsciiDigit c then .error (nextAt .badNumber s)
    else if c = '0' then
      if rest.head?.any Text.isAsciiDigit then .error (nextAt .badNumber rest)
      else readFraction negative 0 0 rest
    else
      let (n, unread) := addDigits 0 (s.takeWhile Text.isAsciiDigit)
      readFraction negative n unread.length (s.dropWhile Text.isAsciiDigit)

/-! ### Arrays, objects and values -/

/-- Whether another element follows; the text is then at its first character. -/
def nextItem (first : Bool) (s : List Char) : Reading (Bool × List Char) :=
  match skipSpace s with
  | [] => .error (hereAt .endInList [])
  | ']' :: rest => .ok (false, ']' :: rest)
  | c :: rest =>
    if first then .ok (true, c :: rest)
    else if c = ',' then
      match skipSpace rest with
      | [] => .error (hereAt .endInValue [])
      | ']' :: rest => .error (nextAt .trailingComma (']' :: rest))
      | rest => .ok (true, rest)
    else .error (nextAt .expectedListEnd (c :: rest))

/-- The next key of an object, or nothing before the closing brace. -/
def nextKey (first : Bool) (s : List Char) : Reading (Option String × List Char) :=
  match skipSpace s with
  | [] => .error (hereAt .endInObject [])
  | '\x7d' :: rest => .ok (none, '\x7d' :: rest)
  | c :: rest =>
    if first then
      if c = '"' then do
        let (k, rest) ← readString rest
        .ok (some k, rest)
      else .error (nextAt .keyNotString (c :: rest))
    else if c = ',' then
      match skipSpace rest with
      | [] => .error (hereAt .endInValue [])
      | '"' :: rest => do
        let (k, rest) ← readString rest
        .ok (some k, rest)
      | '\x7d' :: rest => .error (nextAt .trailingComma ('\x7d' :: rest))
      | rest => .error (nextAt .keyNotString rest)
    else .error (nextAt .expectedObjectEnd (c :: rest))

/-- The colon after a key. -/
def readColon (s : List Char) : Reading (List Char) :=
  match skipSpace s with
  | [] => .error (hereAt .endInObject [])
  | ':' :: rest => .ok rest
  | rest => .error (nextAt .expectedColon rest)

mutual
/-- A value, with at most `depth` containers open inside it. Repeated keys are kept as written. -/
def readValue : Nat → Nat → List Char → Reading (Json × List Char)
  | 0, _, s => .error (hereAt .endInValue s)
  | fuel + 1, depth, s =>
    match skipSpace s with
    | [] => .error (hereAt .endInValue [])
    | '"' :: rest => do
      let (t, rest) ← readString rest
      .ok (.str t, rest)
    | '[' :: rest =>
      match depth with
      | 0 => .error (hereAt .tooDeep rest)
      | depth + 1 => do
        let (vs, rest) ← readItems fuel depth true rest
        .ok (.arr vs, rest)
    | '\x7b' :: rest =>
      match depth with
      | 0 => .error (hereAt .tooDeep rest)
      | depth + 1 => do
        let (ms, rest) ← readMembers fuel depth true rest
        .ok (.obj ms, rest)
    | '-' :: rest => readNumber true rest
    | 'n' :: rest => do
      let rest ← readWord ['u', 'l', 'l'] rest
      .ok (.null, rest)
    | 't' :: rest => do
      let rest ← readWord ['r', 'u', 'e'] rest
      .ok (.bool true, rest)
    | 'f' :: rest => do
      let rest ← readWord ['a', 'l', 's', 'e'] rest
      .ok (.bool false, rest)
    | c :: rest =>
      if Text.isAsciiDigit c then readNumber false (c :: rest)
      else .error (nextAt .expectedValue (c :: rest))
/-- The elements up to the closing bracket. -/
def readItems : Nat → Nat → Bool → List Char → Reading (List Json × List Char)
  | 0, _, _, s => .error (hereAt .endInList s)
  | fuel + 1, depth, first, s => do
    let (more, s) ← nextItem first s
    if more then
      let (v, s) ← readValue fuel depth s
      let (vs, s) ← readItems fuel depth false s
      .ok (v :: vs, s)
    else .ok ([], s.tail)
/-- The members up to the closing brace. -/
def readMembers : Nat → Nat → Bool → List Char → Reading (Members × List Char)
  | 0, _, _, s => .error (hereAt .endInObject s)
  | fuel + 1, depth, first, s => do
    let (key, s) ← nextKey first s
    match key with
    | some k =>
      let s ← readColon s
      let (v, s) ← readValue fuel depth s
      let (ms, s) ← readMembers fuel depth false s
      .ok ((k, v) :: ms, s)
    | none => .ok ([], s.tail)
end

/-- A document may open this many containers inside one another. -/
def depthLimit : Nat := 127

/-- A value as it is written. -/
def readRaw (depth : Nat) (s : List Char) : Reading (Json × List Char) :=
  readValue (2 * s.length + 1) depth s

/-- A value with repeated keys merged. -/
def readTree (depth : Nat) (s : List Char) : Reading (Json × List Char) := do
  let (v, rest) ← readRaw depth s
  .ok (v.merged, rest)

/-- Puts the place of a fault into lines and columns. -/
def locate (s : List Char) : Refusal → JsonError
  | .placed fault left => ⟨fault, some (Position.after s (byteSize s - left))⟩
  | .unplaced fault _ => ⟨fault, none⟩

/-- A whole document: what `reader` takes, and nothing after it. -/
def readDocument {α : Type} (reader : Nat → List Char → Reading (α × List Char))
    (text : List Char) :
    Except JsonError α :=
  match reader depthLimit text with
  | .error e => .error (locate text e)
  | .ok (v, rest) =>
    match skipSpace rest with
    | [] => .ok v
    | rest => .error (locate text (nextAt .trailingText rest))

def parse (text : List Char) : Except JsonError Json := readDocument readTree text

end Json
end MockRedirect
