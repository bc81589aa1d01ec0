import MockRedirect.Json.Reader
/-! Passing over a value that is not wanted. Strings and numbers are looked at less closely than
when they are read, and containers may be nested to any depth. -/
namespace MockRedirect.Json

/-- What follows the backslash of an escape. -/
def skipEscape (s : List Char) : Reading (List Char) :=
  match s with
  | [] => .error (hereAt .endInString [])
  | 'u' :: rest => do
    let (_, rest) ← readHex4 rest
    .ok rest
  | c :: rest =>
    match shortEscape? c with
    | some _ => .ok rest
    | none => .error (nextAt .badEscape (c :: rest))

/-- The rest of a string, its opening quote already read. -/
def skipString : Nat → List Char → Reading (List Char)
  | 0, s => .error (hereAt .endInString s)
  | _ + 1, [] => .error (hereAt .endInString [])
  | fuel + 1, c :: rest =>
    if c = '"' then .ok rest
    else if c = '\\' then do
      let rest ← skipEscape rest
      skipString fuel rest
    else if c.toNat < 32 then .error (hereAt .controlCharacter (c :: rest))
    else skipString fuel rest

/-- The digits of an exponent, after its letter. -/
def skipExponent (s : List Char) : Reading (List Char) :=
  let s : List Char := match s with
    | '+' :: r => r
    | '-' :: r => r
    | r => r
  if s.head?.any Text.isAsciiDigit then .ok (s.dropWhile Text.isAsciiDigit)
  else .error (nextAt .badNumber s)

/-- What may follow the integer part of a number. -/
def skipFraction (s : List Char) : Reading (List Char) :=
  match s with
  | '.' :: s =>
    if s.head?.any Text.isAsciiDigit then
      match s.dropWhile Text.isAsciiDigit with
      | 'e' :: rest => skipExponent rest
      | 'E' :: rest => skipExponent rest
      | rest => .ok rest
    else .error (nextAt .badNumber s)
  | 'e' :: rest => skipExponent rest
  | 'E' :: rest => skipExponent rest
  | rest => .ok rest

/-- A number after its sign. -/
def skipNumber (s : List Char) : Reading (List Char) :=
  match s with
  | '0' :: rest =>
    if rest.head?.any Text.isAsciiDigit then .error (nextAt .badNumber rest) else skipFraction rest
  | s =>
    if s.head?.any Text.isAsciiDigit then skipFraction (s.dropWhile Text.isAsciiDigit)
    else .error (nextAt .badNumber s)

/-- A key and its colon, with an object open. -/
def skipKey (fuel : Nat) (s : List Char) : Reading (List Char) :=
  match skipSpace s with
  | [] => .error (hereAt .endInObject [])
  | '"' :: rest => do
    let rest ← skipString fuel rest
    readColon rest
  | rest => .error (nextAt .keyNotString rest)

mutual
def skipValueIn : Nat → List Char → Reading (List Char)
  | 0, s => .error (hereAt .endInValue s)
  | fuel + 1, s =>
    match skipSpace s with
    | [] => .error (hereAt .endInValue [])
    | '"' :: rest => skipString fuel rest
    | '[' :: rest =>
      match skipSpace rest with
      | [] => .error (hereAt .endInList [])
      | ']' :: rest => .ok rest
      | rest => skipItems fuel rest
    | '\x7b' :: rest =>
      match skipSpace rest with
      | [] => .error (hereAt .endInObject [])
      | '\x7d' :: rest => .ok rest
      | rest => skipMembers fuel rest
    | '-' :: rest => skipNumber rest
    | 'n' :: rest => readWord ['u', 'l', 'l'] rest
    | 't' :: rest => readWord ['r', 'u', 'e'] rest
    | 'f' :: rest => readWord ['a', 'l', 's', 'e'] rest
    | c :: rest =>
      if Text.isAsciiDigit c then skipNumber (c :: rest)
      else .error (nextAt .expectedValue (c :: rest))
/-- At least one element, and all up to the closing bracket. -/
def skipItems : Nat → List Char → Reading (List Char)
  | 0, s => .error (hereAt .endInList s)
  | fuel + 1, s => do
    let s ← skipValueIn fuel s
    match skipSpace s with
    | [] => .error (hereAt .endInList [])
    | ',' :: rest => skipItems fuel rest
    | ']' :: rest => .ok rest
    | rest => .error (nextAt .expectedListEnd rest)
/-- At least one member, and all up to the closing brace. -/
def skipMembers : Nat → List Char → Reading (List Char)
  | 0, s => .error (hereAt .endInObject s)
  | fuel + 1, s => do
    let s ← skipKey (fuel + 1) s
    let s ← skipValueIn fuel s
    match skipSpace s with
    | [] => .error (hereAt .endInObject [])
    | ',' :: rest => skipMembers fuel rest
    | '\x7d' :: rest => .ok rest
    | rest => .error (nextAt .expectedObjectEnd rest)
end

/-- The text after a value. -/
def skipValue (s : List Char) : Reading (List Char) := skipValueIn (2 * s.length + 1) s

end MockRedirect.Json
