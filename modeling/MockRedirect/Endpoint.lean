import MockRedirect.InputError
import MockRedirect.Text.Pieces
import MockRedirect.Url.Address
import MockRedirect.Verb
/-! Endpoints: from what a user types to a path with wildcards and a verb, and the template text in
which both are kept. -/
namespace MockRedirect
open Text

/-- The path of a mocked endpoint, in which `*` stands for any text, and its verb. -/
structure Endpoint where
  path : String
  verb : Verb
  deriving DecidableEq, Repr

/-- The first verb in the query of an address, if it is not empty. -/
def Address.verb? (a : Address) : Option Verb :=
  (a.value? Verb.param.toList).bind fun v => (Verb.of v).filled

/-- The verb that follows the first `MT=` with a value in a text. -/
def Verb.find? : List Char → Option Verb
  | [] => none
  | c :: cs =>
    match after? (Verb.param ++ "=").toList (c :: cs) with
    | some rest =>
      let v := before '&' rest
      if v = [] then Verb.find? cs else (Verb.of v).filled
    | none => Verb.find? cs

namespace Endpoint

/-- A path and a verb as one text. -/
def templateText (path : String) (verb : Verb) : String :=
  path ++ "?" ++ Verb.param ++ "=" ++ verb.text

def template (e : Endpoint) : String := templateText e.path e.verb

/-! ### Placeholders and segments -/

/-- How far a placeholder such as `<id>` reaches, its `<` already read. -/
def placeholderLength? (s : List Char) : Option Nat :=
  let n := (before '>' s).length
  if 0 < n && n < s.length then some (n + 1) else none

def hasPlaceholder : List Char → Bool
  | [] => false
  | c :: cs => (c == '<' && (placeholderLength? cs).isSome) || hasPlaceholder cs

/-- The text with every placeholder replaced by `*`. -/
def starPlaceholders (s : List Char) : List Char := go s 0
where
  go : List Char → Nat → List Char
    | [], _ => []
    | _ :: cs, n + 1 => go cs n
    | c :: cs, 0 =>
      match if c = '<' then placeholderLength? cs else none with
      | some n => '*' :: go cs n
      | none => c :: go cs 0

def isNumeric (segment : List Char) : Bool := segment ≠ [] && segment.all isAsciiDigit

/-- The segments of a path that are not empty; after the first, those that are numbers become `*`. -/
def starNumbers (path : List Char) : List (List Char) :=
  match (split '/' path).filter (· ≠ []) with
  | [] => []
  | s :: ss => s :: ss.map fun t => if isNumeric t then ['*'] else t

/-! ### Reading -/

/-- Whether a text begins with `http://` or `https://` in any case. -/
def isFullUrl (s : List Char) : Bool :=
  let s := (s.take 8).map folded
  startsWith "http://".toList s || startsWith "https://".toList s

/-- The verb in the query that a user typed. -/
def typedVerb? (s : List Char) : Option Verb :=
  (cut? '?' s).bind fun (_, query) => Verb.find? query

/-- Path and verb of what a user typed; the placeholders have been replaced. -/
def parts (raw s : List Char) : Except InputError (List Char × Option Verb) :=
  if isFullUrl s then
    match Address.read false s with
    | .ok a => .ok (a.path, a.verb?)
    | .error e => .error (.url (String.ofList raw) e)
  else .ok (before '?' s, typedVerb? s)

/-- Reads a full URL, whose origin does not matter, or a path. Without a verb of its own the
endpoint takes the fallback. -/
def compile (text : String) (fallback : Verb) : Except InputError Endpoint :=
  let raw := trim text.toList
  if raw = [] then .error (.empty "endpoint")
  else do
    let (path, verb) ← parts raw (starPlaceholders raw)
    .ok ⟨String.ofList ('/' :: join ['/'] (starNumbers path)), verb.getD fallback⟩

/-- The path and verb of a template, or of a URL; a text that is neither is cut at its first `?`. -/
def splitTemplate (text : String) : String × Option Verb :=
  let s := text.toList
  match Address.read true s with
  | .ok a => (String.ofList a.path, a.verb?)
  | .error _ => (String.ofList (before '?' s), typedVerb? s)

/-! ### Showing and changing -/

/-- The parts of a query that are not empty, with the verb put in; it is added if there was none. -/
def verbParts (verb : Verb) (query : List Char) : List (List Char) :=
  let isVerb (part : List Char) : Bool := startsWith (Verb.param ++ "=").toList part
  let new := (Verb.param ++ "=" ++ verb.text).toList
  let parts := (split '&' query).filter (· ≠ [])
  parts.map (fun p => if isVerb p then new else p) ++ if parts.any isVerb then [] else [new]

/-- A URL with its verb replaced; all else stays as typed. -/
def withVerb (url : String) (verb : Verb) : String :=
  let s := url.toList
  let query := match cut? '?' s with
    | some (_, query) => query
    | none => []
  String.ofList (before '?' s ++ '?' :: join ['&'] (verbParts verb query))

/-- The path as listings show it: with placeholders as typed, otherwise with numbers as `<ID>`. -/
def displayPath (url : String) : String :=
  let s := url.toList
  if hasPlaceholder s then String.ofList (before '?' s)
  else
    match Address.read true s with
    | .ok a =>
      String.ofList <| join ['/'] <|
        (split '/' a.path).map fun t => if isNumeric t then "<ID>".toList else t
    | .error _ => url

/-- Whether a text is a full URL or a path that begins with a slash, without blanks inside. -/
def isEndpoint (s : List Char) : Bool :=
  !s.any isBlank &&
    match s with
    | '/' :: c :: _ => c ≠ '?'
    | _ => ["http://", "https://"].any fun start => (after? start.toList s).any (· ≠ [])

def validate (text : String) : Except InputError Unit :=
  if isEndpoint (trim text.toList) then .ok () else .error (.endpoint text)

example : (compile "/api/<id>/20?x=1&MT=put" .get).toOption.map template =
    some "/api/*/*?MT=PUT" := by decide +kernel
example : withVerb "/a?x&MT=get" ⟨"PUT"⟩ = "/a?x&MT=PUT" := by decide +kernel

end Endpoint
end MockRedirect
