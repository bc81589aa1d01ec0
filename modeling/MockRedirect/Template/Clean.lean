import MockRedirect.Body.Status
import MockRedirect.InputError
import MockRedirect.Json.Reader
import MockRedirect.Template.Annotation
/-! From template text, or from the answer of a model, to a clean tree. -/
namespace MockRedirect.Template
open Text

/-- Keys that start with this mark belong to the template, not to the body. -/
def metaMark : Char := '@'

def isMetaKey (key : List Char) : Bool := key.head? == some metaMark

/-- Meta keys, and the single blank that models sometimes give as a key. -/
def isNoise (key : List Char) : Bool := isMetaKey key || key == [' ']

def stripComments (s : List Char) : List Char := replaceComments (fun _ => []) s

/-- The template without comments and meta fields, otherwise as written. -/
def sampleText (s : List Char) : List Char := trim (stripFields isMetaKey (stripComments s))

/-- The clean tree of a template. -/
def parse (s : List Char) : Except InputError Json :=
  if s.all isBlank then .error (.empty "template")
  else
    match Json.parse (sampleText s) with
    | .ok v => .ok (v.prune fun k => isMetaKey k.toList)
    | .error e => .error (.malformed e)

/-- The text without code fences, each with or without a language mark. -/
def dropFences (s : List Char) : List Char := go s 0
where
  go : List Char → Nat → List Char
    | [], _ => []
    | _ :: cs, n + 1 => go cs n
    | c :: cs, 0 =>
      if startsWith (List.replicate 3 '\x60') (c :: cs) then
        go cs (if startsWith "json".toList (cs.drop 2) then 6 else 2)
      else c :: go cs 0

def isOpening (c : Char) : Bool := c == '\x7b' || c == '['

def isClosing (c : Char) : Bool := c == '\x7d' || c == ']'

/-- The text from the first opening to the last closing bracket; the whole text if they do not
stand in this order. -/
def jsonSpan (s : List Char) : List Char :=
  let start := (s.takeWhile (!isOpening ·)).length
  let stop := (s.reverse.dropWhile (!isClosing ·)).length
  if s.any isOpening && start + 1 < stop then (s.take stop).drop start else s

/-- What is left of a model's answer before it is read as JSON. -/
def answerText (s : List Char) : List Char :=
  trim (dropTrailingCommas (stripFields isNoise (stripComments (jsonSpan (trim (dropFences s))))))

/-- The clean tree in a model's answer: fences, prose, comments, noise fields and the commas they
leave behind are dropped, and the status is zeroed. -/
def sanitize (s : List Char) : Except InputError Json :=
  match Json.parse (answerText s) with
  | .ok v => .ok (v.prune fun k => isNoise k.toList).zeroStatus
  | .error e => .error (.malformed e)

example : jsonSpan "x \x7ba\x7d y".toList = "\x7ba\x7d".toList := by decide

end MockRedirect.Template
