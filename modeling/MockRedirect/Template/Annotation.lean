import MockRedirect.Template.Scan
/-! Annotations: block comments of the form `req, xs:<type>, note:<description>` beside a field. -/
namespace MockRedirect

/-- The two parts of an annotation that are used; anything else in the comment is dropped. -/
structure Annotation where
  typeTag : Option String
  note : Option String
  deriving DecidableEq, Repr

namespace Annotation
open Text Template

/-- A part of a comment, between two commas. -/
inductive Part where
  | typeTag (text : List Char)
  | note (text : List Char)
  | other (text : List Char)

def Part.of (part : List Char) : Part :=
  let s := trim part
  match after? "xs:".toList s with
  | some rest => .typeTag (trim rest)
  | none =>
    match after? "note:".toList s with
    | some rest => .note (trim rest)
    | none => .other part

/-- What has been read of a comment; parts that are neither a type nor a note continue a note that
was the last to be named. -/
structure State where
  typeTag : Option (List Char)
  note : Option (List Char)
  inNote : Bool

def State.add (st : State) (part : List Char) : State :=
  match Part.of part with
  | .typeTag t => ⟨some t, st.note, false⟩
  | .note t => ⟨st.typeTag, some t, true⟩
  | .other p => if st.inNote then { st with note := st.note.map (· ++ ',' :: p) } else st

/-- A text, unless it is empty. -/
def filled (s : List Char) : Option String := if s = [] then none else some (String.ofList s)

/-- Reads the inside of a comment. A note may contain commas. -/
def parse (inner : List Char) : Annotation :=
  let st := (split ',' inner).foldl State.add ⟨none, none, false⟩
  ⟨st.typeTag.bind filled, st.note.bind fun n => filled (trim n)⟩

def isEmpty (a : Annotation) : Bool := a.typeTag.isNone && a.note.isNone

/-- The parts that are present, as they stand in a condensed comment. -/
def parts (a : Annotation) : List (List Char) :=
  (a.typeTag.map fun t => "xs:".toList ++ t.toList).toList ++
    (a.note.map fun n => "note:".toList ++ n.toList).toList

/-- The condensed comment; nothing when both parts are missing. -/
def render (a : Annotation) : List Char :=
  if a.parts = [] then [] else "/* ".toList ++ join ", ".toList a.parts ++ " */".toList

/-- The length of a key up to its closing quote, the opening one already read. A line feed cannot
be escaped. -/
def keyLength? : List Char → Option Nat
  | [] => none
  | ['\\'] => none
  | '\\' :: c :: cs => if c = '\n' then none else (keyLength? cs).map (· + 2)
  | c :: cs => if c = '"' then some 0 else (keyLength? cs).map (· + 1)

/-- A key whose opening quote has been read, and its length up to and with the colon. -/
def key? (s : List Char) : Option (List Char × Nat) := do
  let n ← keyLength? s
  let blanks := ((s.drop (n + 1)).takeWhile isBlank).length
  if (s.drop (n + 1 + blanks)).head? = some ':' then some (s.take n, n + 2 + blanks) else none

/-- The last key in a text. -/
def lastKey? (s : List Char) : Option String := go s 0 none
where
  go : List Char → Nat → Option String → Option String
    | [], _, last => last
    | _ :: cs, n + 1, last => go cs n last
    | c :: cs, 0, last =>
      if c = '"' then
        match key? cs with
        | some (key, n) => go cs n (some (String.ofList key))
        | none => go cs 0 last
      else go cs 0 last

example : (parse " req, xs: int , note: a, b ".toList) = ⟨some "int", some "a, b"⟩ := by decide
example : String.ofList (parse "req,note:x".toList).render = "/* note:x */" := by decide

end Annotation

/-- An annotation with the key written closest before it. -/
structure FieldAnnotation where
  field : Option String
  annotation : Annotation
  deriving DecidableEq, Repr

namespace Template

/-- Every annotation of a template. -/
def fieldAnnotations (s : List Char) : List FieldAnnotation :=
  (comments s).map fun (before, inner) =>
    { field := Annotation.lastKey? before, annotation := Annotation.parse inner }

/-- The template with its annotations condensed; those without a type or note vanish. -/
def hints (s : List Char) : List Char :=
  replaceComments (fun inner => Annotation.render <| Annotation.parse inner) s

end Template
end MockRedirect
