import MockRedirect.Template.Clean
import MockRedirect.Text.Offset
/-! The scanners on the bytes of a text: loops over byte offsets, and slices between the offsets they find. A character
of several bytes is passed byte by byte, and a backslash takes the next byte along whatever that belongs to. -/
namespace MockRedirect.Template.Bytewise
open Text

/-! ### Ends of literals and values -/

/-- Up to the offset behind the closing quote of a literal, or to the end of the text. -/
def literal (s : List Char) : Loop Unit Nat where
  text := s
  round i _ := do
    let b ← byte s i
    if b = '\\'.toNat then pure (.next (i + 2) ())
    else if b = '"'.toNat then pure (.done (i + 1))
    else pure (.next (i + 1) ())
  last _ _ := size s

/-- Behind the literal that opens at an offset. -/
def literalEnd (s : List Char) (start : Nat) : Scan Nat := (literal s).run (start + 1) ()

def isBlankByte (b : Nat) : Bool := [' ', '\t', '\n', '\r', '\x0c'].any (·.toNat = b)

def blanks (s : List Char) : Loop Unit Nat where
  text := s
  round i _ := do
    if isBlankByte (← byte s i) then pure (.next (i + 1) ()) else pure (.done i)
  last i _ := i

def blanksEnd (s : List Char) (start : Nat) : Scan Nat := (blanks s).run start ()

/-- Up to the offset behind the bracket that closes the outermost container. -/
def container (s : List Char) : Loop Nat Nat where
  text := s
  round i depth := do
    let b ← byte s i
    if b = '"'.toNat then return .next (← literalEnd s i) depth
    else if b = '\x7b'.toNat ∨ b = '['.toNat then pure (.next (i + 1) (depth + 1))
    else if b = '\x7d'.toNat ∨ b = ']'.toNat then
      if depth - 1 = 0 then pure (.done (i + 1)) else pure (.next (i + 1) (depth - 1))
    else pure (.next (i + 1) depth)
  last _ _ := size s

def endsScalar (b : Nat) : Bool := [',', '\x7d', ']'].any (·.toNat = b)

/-- Behind the value that starts at an offset. -/
def valueEnd (s : List Char) (start : Nat) : Scan Nat :=
  if byte? s start = some '"'.toNat then literalEnd s start
  else if byte? s start = some '\x7b'.toNat ∨ byte? s start = some '['.toNat then (container s).run start 0
  else
    match ((utf8 s).drop start).findIdx? endsScalar with
    | some n => pure (start + n)
    | none => pure (size s)

/-! ### Comments -/

/-- Collects where the block comments start and where they end. -/
def commentLoop (s : List Char) : Loop (List (Nat × Nat)) (List (Nat × Nat)) where
  text := s
  round i spans := do
    let b ← byte s i
    if b = '"'.toNat then return .next (← literalEnd s i) spans
    else if b = '/'.toNat ∧ byte? s (i + 1) = some '*'.toNat then
      let rest ← slice s (i + 2) (size s)
      match innerLength? rest with
      | none => pure (.done spans)
      | some n =>
        let stop := i + 2 + size (rest.take n) + 2
        pure (.next stop (spans ++ [(i, stop)]))
    else pure (.next (i + 1) spans)
  last _ spans := spans

def commentSpans (s : List Char) : Scan (List (Nat × Nat)) := (commentLoop s).run 0 []

/-- The inside of a comment. -/
def inside (s : List Char) (start stop : Nat) : Scan (List Char) := do slice s (start + 2) (← minus stop 2)

/-- The text kept so far, and the offset up to which it has been settled what is kept. -/
structure Kept where
  out : List Char
  settled : Nat
  deriving Inhabited

/-- The text kept so far, with all that follows it up to an offset. -/
def Kept.upTo (k : Kept) (s : List Char) (i : Nat) : Scan (List Char) := return k.out ++ (← slice s k.settled i)

def replaceSpan (f : List Char → List Char) (s : List Char) (k : Kept) (span : Nat × Nat) : Scan Kept := do
  let out ← k.upTo s span.1
  return ⟨out ++ f (← inside s span.1 span.2), span.2⟩

def replaceComments (f : List Char → List Char) (s : List Char) : Scan (List Char) := do
  let spans ← commentSpans s
  if spans = [] then pure s
  else (← spans.foldlM (replaceSpan f s) ⟨[], 0⟩).upTo s (size s)

def stripComments (s : List Char) : Scan (List Char) := replaceComments (fun _ => []) s

def hints (s : List Char) : Scan (List Char) :=
  replaceComments (fun inner => Annotation.render <| Annotation.parse inner) s

def annotationAt (s : List Char) (span : Nat × Nat) : Scan FieldAnnotation := do
  let before ← slice s 0 span.1
  return { field := Annotation.lastKey? before, annotation := Annotation.parse (← inside s span.1 span.2) }

def fieldAnnotations (s : List Char) : Scan (List FieldAnnotation) := do
  (← commentSpans s).mapM (annotationAt s)

/-! ### Fields and commas -/

/-- A text without the blanks at its end and the comma before them. -/
def dropComma (out : List Char) : Scan (List Char) := do
  let out ← truncate out (size (trimEnd out))
  return (dropLast? ',' out).getD out

/-- Behind the field whose colon stands at an offset, and behind the blanks that follow its value. -/
def fieldEnd (s : List Char) (colon : Nat) : Scan Nat := do
  blanksEnd s (← valueEnd s (← blanksEnd s (colon + 1)))

def fieldLoop (drop : List Char → Bool) (s : List Char) : Loop Kept Kept where
  text := s
  round i k := do
    if (← byte s i) ≠ '"'.toNat then pure (.next (i + 1) k)
    else
      let keyEnd ← literalEnd s i
      let colon ← blanksEnd s keyEnd
      if byte? s colon = some ':'.toNat then
        if drop (← slice s (i + 1) (← minus keyEnd 1)) then
          let stop ← fieldEnd s colon
          let out ← k.upTo s i
          if byte? s stop = some ','.toNat then pure (.next (stop + 1) ⟨out, stop + 1⟩)
          else return .next stop ⟨← dropComma out, stop⟩
        else pure (.next keyEnd k)
      else pure (.next keyEnd k)
  last _ k := k

/-- Drops the commas in front of closing brackets. -/
def commaLoop (s : List Char) : Loop Kept Kept where
  text := s
  round i k := do
    let b ← byte s i
    if b = '"'.toNat then return .next (← literalEnd s i) k
    else if b = ','.toNat then
      let next := byte? s (← blanksEnd s (i + 1))
      if next = some '\x7d'.toNat ∨ next = some ']'.toNat then
        return .next (i + 1) ⟨← k.upTo s i, i + 1⟩
      else pure (.next (i + 1) k)
    else pure (.next (i + 1) k)
  last _ k := k

/-- The text that a loop keeps; the text itself, if nothing was dropped. -/
def kept (l : Loop Kept Kept) : Scan (List Char) := do
  let k ← l.run 0 ⟨[], 0⟩
  if k.settled = 0 then pure l.text else k.upTo l.text (size l.text)

def stripFields (drop : List Char → Bool) (s : List Char) : Scan (List Char) := kept (fieldLoop drop s)

def dropTrailingCommas (s : List Char) : Scan (List Char) := kept (commaLoop s)

/-! ### Templates and answers -/

def jsonSpan (s : List Char) : Scan (List Char) :=
  match offset? isOpening s, lastOffset? isClosing s with
  | some start, some stop => if start < stop then slice s start (stop + 1) else pure s
  | _, _ => pure s

def sampleText (s : List Char) : Scan (List Char) := do
  return trim (← stripFields isMetaKey (← stripComments s))

def parse (s : List Char) : Scan (Except InputError Json) := do
  if s.all isBlank then return .error (.empty "template")
  match Json.parse (← sampleText s) with
  | .ok v => return .ok (v.prune fun k => isMetaKey k.toList)
  | .error e => return .error (.malformed e)

def answerText (s : List Char) : Scan (List Char) := do
  let s ← stripComments (← jsonSpan (trim (dropFences s)))
  return trim (← dropTrailingCommas (← stripFields isNoise s))

def sanitize (s : List Char) : Scan (Except InputError Json) := do
  match Json.parse (← answerText s) with
  | .ok v => return .ok (v.prune fun k => isNoise k.toList).zeroStatus
  | .error e => return .error (.malformed e)

end MockRedirect.Template.Bytewise
