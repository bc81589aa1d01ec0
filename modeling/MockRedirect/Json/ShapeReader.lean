import MockRedirect.Json.Shape
import MockRedirect.Json.Skip
/-! Reading a record from text. The text is taken as far as the shape asks for, so of a wrong shape
and a broken text the one that comes first is reported. -/
namespace MockRedirect
open Json

/-- A reader of the values of one shape; the number says how many containers may still be opened. -/
abbrev ShapeReader := Nat → List Char → Reading (Json × List Char)

namespace Shape

/-! ### Closing a container -/

/-- The text after an object that is over; nothing to be closed is passed over. -/
def pastObject (s : List Char) : List Char :=
  match skipSpace s with
  | '\x7d' :: rest => rest
  | rest => rest

/-- The text after an array that is over, or after the comma that goes on with it. -/
def pastArray (s : List Char) : List Char :=
  match skipSpace s with
  | ']' :: rest => rest
  | ',' :: rest => skipSpace rest
  | rest => rest

/-- A fault of a container as a whole is placed at its end. -/
def settle (past : List Char → List Char) : Refusal → Refusal
  | .unplaced fault rest => hereAt fault (past rest)
  | e => e

/-- The closing bracket of an array from which no element is wanted any more. -/
def closeArray (s : List Char) : Reading (List Char) :=
  match skipSpace s with
  | [] => .error (hereAt .endInList [])
  | ']' :: rest => .ok rest
  | ',' :: rest =>
    match skipSpace rest with
    | ']' :: rest => .error (nextAt .trailingComma (']' :: rest))
    | rest => .error (nextAt .trailingText rest)
  | rest => .error (nextAt .trailingText rest)

/-- What the members of an object make of it; they end before the closing brace. -/
def inObject (r : Reading (α × List Char)) : Reading (α × List Char) :=
  match r with
  | .ok (v, rest) => .ok (v, pastObject rest)
  | .error e => .error (settle pastObject e)

/-- What the elements of an array make of it. -/
def inArray (r : Reading (α × List Char)) : Reading (α × List Char) :=
  match r with
  | .ok (v, rest) => (closeArray rest).map fun rest => (v, rest)
  | .error e => .error (settle pastArray e)

/-! ### Scalars -/

/-- The fault of a value that is not of the expected kind. A scalar is read first. -/
def wrongTypeAt (expected : String) (s : List Char) : Refusal :=
  let fault (v : Json) : Fault := .wrongType v.found expected
  let after (r : Reading (Json × List Char)) : Refusal :=
    match r with
    | .ok (v, rest) => hereAt (fault v) rest
    | .error e => e
  match skipSpace s with
  | [] => hereAt .endInValue []
  | '[' :: rest => hereAt (fault (.arr [])) ('[' :: rest)
  | '\x7b' :: rest => hereAt (fault (.obj [])) ('\x7b' :: rest)
  | rest => after (readRaw 0 rest)

def readText (expected : String) (s : List Char) : Reading (String × List Char) :=
  match skipSpace s with
  | '"' :: rest => readString rest
  | rest => .error (wrongTypeAt expected rest)

def readFlag (s : List Char) : Reading (Json × List Char) :=
  match skipSpace s with
  | 't' :: rest => readRaw 0 ('t' :: rest)
  | 'f' :: rest => readRaw 0 ('f' :: rest)
  | rest => .error (wrongTypeAt "a boolean" rest)

def readInteger (name : String) (low high : Int) (s : List Char) : Reading (Json × List Char) :=
  let s := skipSpace s
  if s.head?.any fun c => c == '-' || Text.isAsciiDigit c then do
    let (v, rest) ← readRaw 0 s
    match fit (.integer name low high) v with
    | .ok v => .ok (v, rest)
    | .error e => .error (hereAt e rest)
  else .error (wrongTypeAt name s)

/-- A name out of a list. -/
def readName (known : List String) (s : List Char) : Reading (String × List Char) := do
  let (name, rest) ← readText "variant identifier" s
  if known.contains name then .ok (name, rest)
  else .error (hereAt (.unknownVariant name known) rest)

/-- A word is a string, or the only key of an object with the value null. -/
def readWordOf (known : List String) (depth : Nat) (s : List Char) : Reading (Json × List Char) :=
  match skipSpace s with
  | [] => .error (hereAt .endInValue [])
  | '"' :: rest => do
    let (name, rest) ← readName known ('"' :: rest)
    .ok (.str name, rest)
  | '\x7b' :: rest =>
    match depth with
    | 0 => .error (hereAt .tooDeep rest)
    | _ + 1 => do
      let (name, rest) ← readName known rest
      let rest ← readColon rest
      let rest ← match skipSpace rest with
        | 'n' :: rest => readWord ['u', 'l', 'l'] rest
        | rest => .error (wrongTypeAt "unit" rest)
      match skipSpace rest with
      | [] => .error (hereAt .endInObject [])
      | '\x7d' :: rest => .ok (.str name, rest)
      | rest => .error (hereAt .expectedValue rest)
  | rest => .error (nextAt .expectedValue rest)

/-! ### Containers -/

/-- Opens a container, if one more may be opened. -/
def opened (depth : Nat) (s : List Char) (read : Nat → List Char → Reading α) : Reading α :=
  match depth with
  | 0 => .error (hereAt .tooDeep s)
  | depth + 1 => read depth s

/-- The elements of an array, up to its end. -/
def readElements (reader : ShapeReader) (depth : Nat) :
    Nat → Bool → List Char → Reading (List Json × List Char)
  | 0, _, s => .error (hereAt .endInList s)
  | fuel + 1, first, s => do
    let (more, s) ← nextItem first s
    if more then
      let (v, s) ← reader depth s
      let (vs, s) ← readElements reader depth fuel false s
      .ok (v :: vs, s)
    else .ok ([], s)

/-- The members of a record that are given by name, up to the end of the object. -/
def readNamed (fields : List (Field ShapeReader)) (depth : Nat) :
    Nat → Bool → Members → List Char → Reading (Members × List Char)
  | 0, _, _, s => .error (hereAt .endInObject s)
  | fuel + 1, first, given, s => do
    let (key, s) ← nextKey first s
    match key with
    | none => .ok (given, s)
    | some key =>
      match Field.find? fields key with
      | none =>
        let s ← readColon s
        let s ← skipValue s
        readNamed fields depth fuel false given s
      | some f =>
        if (Members.get? f.name given).isSome then .error (.unplaced (.repeatedField f.name) s)
        let s ← readColon s
        let (v, s) ← f.content depth s
        readNamed fields depth fuel false (given ++ [(f.name, v)]) s

/-- The fields of a record from the `i`th on, out of an array. -/
def readInOrder (expected : String) (depth : Nat) :
    Nat → List (Field ShapeReader) → List Char → Reading (Members × List Char)
  | _, [], s => .ok ([], s)
  | i, f :: fs, s => do
    let (more, s) ← nextItem (i == 0) s
    if more then
      let (v, s) ← f.content depth s
      let (ms, s) ← readInOrder expected depth (i + 1) fs s
      .ok ((f.name, v) :: ms, s)
    else
      match f.whenShort expected i with
      | .error e => .error (.unplaced e s)
      | .ok v =>
        let (ms, s) ← readInOrder expected depth (i + 1) fs s
        .ok ((f.name, v) :: ms, s)

/-- The variant and the other members of a tagged object, up to its end. -/
def readTagged (tag : String) (known : List String) (depth : Nat) :
    Nat → Bool → Option String → Members → List Char → Reading ((String × Members) × List Char)
  | 0, _, _, _, s => .error (hereAt .endInObject s)
  | fuel + 1, first, variant, ms, s => do
    let (key, s) ← nextKey first s
    match key with
    | none =>
      match variant with
      | some name => .ok ((name, ms), s)
      | none => .error (.unplaced (.missingField tag) s)
    | some key =>
      if key = tag then
        if variant.isSome then .error (.unplaced (.repeatedField tag) s)
        let s ← readColon s
        let (name, s) ← readName known s
        readTagged tag known depth fuel false (some name) ms s
      else
        let s ← readColon s
        let (v, s) ← readRaw depth s
        readTagged tag known depth fuel false variant (ms ++ [(key, v)]) s

/-- A record as an object or as an array. -/
def readRecord (name : String) (fields : List (Field ShapeReader)) (depth : Nat) (s : List Char) :
    Reading (Json × List Char) :=
  match skipSpace s with
  | '[' :: rest =>
    opened depth rest fun depth s => inArray do
      let (ms, s) ← readInOrder (Field.count name fields) depth 0 fields s
      .ok (.obj ms, s)
  | '\x7b' :: rest =>
    opened depth rest fun depth s => inObject do
      let (given, s) ← readNamed fields depth (s.length + 1) true [] s
      match Field.complete fields given with
      | .ok ms => .ok (.obj ms, s)
      | .error e => .error (.unplaced e s)
  | rest => .error (wrongTypeAt name rest)

/-- A tagged record: the variant, and what it is made of. -/
def readVariant (name tag : String) (known : List String) (depth : Nat) (s : List Char) :
    Reading ((String × Json) × List Char) :=
  match skipSpace s with
  | '[' :: rest =>
    opened depth rest fun depth s => inArray do
      let (more, s) ← nextItem true s
      if more then
        let (variant, s) ← readName known s
        let (vs, s) ← readElements readRaw depth (s.length + 1) false s
        .ok ((variant, .arr vs), s)
      else .error (.unplaced (.missingField tag) s)
  | '\x7b' :: rest =>
    opened depth rest fun depth s => inObject do
      let ((variant, ms), s) ← readTagged tag known depth (s.length + 1) true none [] s
      .ok ((variant, .obj ms), s)
  | rest => .error (wrongTypeAt name rest)

/-- Checks a value that was read as it is written. -/
def checkRead (check : Json → Except Fault Json) (r : Reading (Json × List Char)) :
    Reading (Json × List Char) := do
  let (v, rest) ← r
  match check v with
  | .ok w => .ok (w, rest)
  | .error e => .error (.unplaced e rest)

mutual
/-- Reads a value of a shape and brings it to its normal form. -/
def read : Shape → ShapeReader
  | .tree, depth, s => readTree depth s
  | .text, _, s => (readText "a string" s).map fun (t, rest) => (.str t, rest)
  | .flag, _, s => readFlag s
  | .integer name low high, _, s => readInteger name low high s
  | .checked check, depth, s => checkRead check (readRaw depth s)
  | .optional shape, depth, s =>
    match skipSpace s with
    | 'n' :: rest => readRaw 0 ('n' :: rest)
    | rest => read shape depth rest
  | .members, depth, s =>
    match skipSpace s with
    | '\x7b' :: rest => readTree depth ('\x7b' :: rest)
    | rest => .error (wrongTypeAt "a map" rest)
  | .word known, depth, s => readWordOf known depth s
  | .list shape, depth, s =>
    match skipSpace s with
    | '[' :: rest =>
      opened depth rest fun depth s => inArray do
        let (vs, s) ← readElements (read shape) depth (s.length + 1) true s
        .ok (.arr vs, s)
    | rest => .error (wrongTypeAt "a sequence" rest)
  | .record name fields, depth, s => readRecord name (readers fields) depth s
  | .tagged name tag variants, depth, s => do
    let ((variant, v), rest) ← readVariant name tag (variants.map (·.1)) depth s
    match fitVariant variants tag variant v with
    | .ok w => .ok (w, rest)
    | .error e => .error (.unplaced e rest)
def readers : List (Field Shape) → List (Field ShapeReader)
  | [] => []
  | ⟨name, aliases, absence, shape⟩ :: fs => ⟨name, aliases, absence, read shape⟩ :: readers fs
end

/-- Reads a whole document of a shape. -/
def readDocument (shape : Shape) (text : List Char) : Except JsonError Json :=
  Json.readDocument (read shape) text

end Shape
end MockRedirect
