import MockRedirect.Url.Host
/-! Addresses: the path and the query of a URL, whose origin is checked and then dropped. -/
namespace MockRedirect
open Text

/-- The path of a URL in encoded form, and its query as typed. -/
structure Address where
  path : List Char
  query : Option (List Char)
  deriving DecidableEq, Repr

namespace Address

/-- How the authority and the path of a scheme are read. -/
inductive SchemeKind where
  | file
  | special
  | other
  deriving DecidableEq, Repr

def schemeKind (scheme : List Char) : SchemeKind :=
  if scheme = "file".toList then .file
  else if ["http", "https", "ws", "wss", "ftp"].any (·.toList = scheme) then .special
  else .other

/-- A scheme with the text after its colon. -/
def scheme? (s : List Char) : Option (List Char × List Char) :=
  let ok (c : Char) : Bool := isAsciiLetter c || isAsciiDigit c || c == '+' || c == '-' || c == '.'
  match s.dropWhile ok with
  | ':' :: rest => if s.head?.any isAsciiLetter then some (lowercase (s.takeWhile ok), rest) else none
  | _ => none

/-! ### Paths -/

/-- The characters that stay as they are in an opaque path. -/
def keepsOpaque (c : Char) : Bool := 0x20 ≤ c.toNat && c.toNat < 0x7F

/-- The characters that stay as they are in a path segment. -/
def keepsSegment (c : Char) : Bool := keepsOpaque c && !" \"<>`#?\x7b\x7d".toList.contains c

/-- The path text with `.` for every encoded dot, for telling dot segments. -/
def plainDots (s : List Char) : List Char :=
  match s with
  | '%' :: '2' :: 'e' :: cs => '.' :: plainDots cs
  | '%' :: '2' :: 'E' :: cs => '.' :: plainDots cs
  | c :: cs => c :: plainDots cs
  | [] => []

def isDriveLetter (s : List Char) : Bool :=
  match s with
  | [c, d] => isAsciiLetter c && (d == ':' || d == '|')
  | _ => false

/-- The path made of the segments kept so far, last one first. -/
def pathText (kept : List (List Char)) : List Char :=
  '/' :: kept.reverse.flatMap (· ++ ['/'])

/-- Goes one level up; a drive letter stays. -/
def goUp : List (List Char) → List (List Char)
  | [] => []
  | s :: kept => if isDriveLetter s then s :: kept else kept

/-- A segment in encoded form. At the start of a file path a drive letter gets a colon, and what
is glued to one becomes a segment of its own. -/
def encodeSegment (file : Bool) (kept : List (List Char)) (s : List Char) : List Char :=
  if file && kept.isEmpty then
    match s with
    | [c, d] =>
      if isDriveLetter [c, d] then [c, ':'] else percentEncode keepsSegment s
    | c :: ':' :: rest =>
      if isAsciiLetter c then c :: ':' :: '/' :: percentEncode keepsSegment rest
      else percentEncode keepsSegment s
    | _ => percentEncode keepsSegment s
  else percentEncode keepsSegment s

/-- The path that a list of segments leads to. A dot segment at the end leaves a slash. -/
def resolve (file : Bool) : List (List Char) → List (List Char) → List Char
  | kept, [] => pathText kept
  | kept, s :: rest =>
    let dots := plainDots s
    if dots = ['.', '.'] then resolve file (goUp kept) rest
    else if dots = ['.'] then resolve file kept rest
    else
      let t := encodeSegment file kept s
      if rest = [] then pathText kept ++ t else resolve file (t :: kept) rest

/-- The segments of a path; a backslash parts them like a slash unless the scheme is an other one. -/
def segments (kind : SchemeKind) (s : List Char) : List (List Char) :=
  split '/' (if kind = .other then s else s.map fun c => if c = '\\' then '/' else c)

/-- The path and query of the text after the authority, with `read` for its path. -/
def finish (read : List Char → List Char) (s : List Char) : Address :=
  let stop (c : Char) : Bool := c == '?' || c == '#'
  ⟨read (s.takeWhile (!stop ·)),
    match s.dropWhile (!stop ·) with
    | '?' :: rest => some (before '#' rest)
    | _ => none⟩

def isSlash (kind : SchemeKind) (c : Char) : Bool := c == '/' || (kind ≠ .other && c == '\\')

/-- A path that begins with a slash, written or understood. -/
def rooted (kind : SchemeKind) (s : List Char) : List Char :=
  let s := match s with
    | c :: rest => if isSlash kind c then rest else s
    | [] => []
  let path := resolve (kind = .file) [] (segments kind s)
  if kind = .file then '/' :: path.dropWhile (· = '/') else path

/-! ### Authorities -/

/-- The parts around the last `@`. -/
def cutLast? (s : List Char) : Option (List Char × List Char) :=
  if s.contains '@' then
    let rest := (s.reverse.takeWhile (· ≠ '@')).reverse
    some (s.take (s.length - rest.length - 1), rest)
  else none

/-- The host at the front of a text, up to a colon outside brackets. -/
def hostText (inBrackets : Bool) : List Char → List Char
  | [] => []
  | c :: cs =>
    if c = ':' && !inBrackets then []
    else c :: hostText (if c = '[' then true else if c = ']' then false else inBrackets) cs

/-- A port of at most 16 bits, which may be missing. What follows it begins with a slash of either
kind. -/
def checkPort (s : List Char) : Except UrlFault (List Char) :=
  let ds := s.takeWhile isAsciiDigit
  let rest := s.dropWhile isAsciiDigit
  if 65535 < decimal ds then .error .badPort
  else
    match rest with
    | [] => .ok []
    | c :: _ => if c = '/' ∨ c = '\\' then .ok rest else .error .badPort

/-- The user of an authority, and its host and port. -/
def splitUser (authority : List Char) (more : Bool) : Except UrlFault (List Char × List Char) :=
  match cutLast? authority with
  | none => .ok ([], authority)
  | some (user, rest) =>
    if user = [] ∧ rest = [] ∧ more then .error .emptyHost else .ok (user, rest)

/-- Checks a host; `rest` is what follows it in the authority. -/
def checkHost (special : Bool) (host rest : List Char) : Except UrlFault Unit :=
  if special then if host = [] then .error .emptyHost else Host.check host
  else do
    Host.checkOpaque host
    if host = [] ∧ rest ≠ [] then .error .emptyHost

/-- Checks what follows a host; gives the text that belongs to the path after all. -/
def afterHost (rest : List Char) : Except UrlFault (List Char) :=
  match rest with
  | ':' :: port => checkPort port
  | _ => .ok []

/-- Checks user, host and port of an authority without its slashes; gives the text that belongs to
the path after all. -/
def checkAuthority (special : Bool) (authority : List Char) (more : Bool) :
    Except UrlFault (List Char) := do
  let (user, hostPort) ← splitUser authority more
  let host := hostText false hostPort
  let rest := hostPort.drop host.length
  checkHost special host rest
  let path ← afterHost rest
  if host = [] ∧ user ≠ [] ∧ user ≠ [':'] then .error .emptyHost else .ok path

/-- What follows the two slashes after a scheme. -/
def afterSlashes (kind : SchemeKind) (s : List Char) : Except UrlFault Address := do
  let stop (c : Char) : Bool := isSlash kind c || c == '?' || c == '#'
  let rest := s.dropWhile (!stop ·)
  let glued ← checkAuthority (kind ≠ .other) (s.takeWhile (!stop ·)) (!rest.isEmpty)
  .ok <| finish (fun p => if kind = .other ∧ p = [] then [] else rooted kind p) (glued ++ rest)

/-- A file URL after its scheme. -/
def readFile (s : List Char) : Except UrlFault Address :=
  match s with
  | a :: b :: rest =>
    if isSlash .file a && isSlash .file b then
      let stop (c : Char) : Bool := isSlash .file c || c == '?' || c == '#'
      let host := rest.takeWhile (!stop ·)
      if isDriveLetter host then .ok (finish (rooted .file) rest)
      else do
        if host ≠ [] then Host.check host
        .ok (finish (rooted .file) (rest.dropWhile (!stop ·)))
    else .ok (finish (rooted .file) s)
  | s => .ok (finish (rooted .file) s)

/-- A text relative to the root of some `http` origin. -/
def readRelative (s : List Char) : Except UrlFault Address :=
  match s with
  | a :: b :: rest =>
    if isSlash .special a && isSlash .special b then
      afterSlashes .special (if a = '/' ∧ b = '/' then rest else s.dropWhile (isSlash .special))
    else .ok (finish (rooted .special) s)
  | s => .ok (finish (rooted .special) s)

/-- What follows a scheme. With `base`, an `http` URL without an authority is relative. -/
def readScheme (base : Bool) (scheme s : List Char) : Except UrlFault Address :=
  match schemeKind scheme with
  | .file => readFile s
  | .special =>
    if base ∧ scheme = "http".toList ∧ (s.takeWhile (isSlash .special)).length < 2 then
      readRelative s
    else afterSlashes .special (s.dropWhile (isSlash .special))
  | .other =>
    match s with
    | '/' :: '/' :: rest => afterSlashes .other rest
    | '/' :: _ => .ok (finish (rooted .other) s)
    | s => .ok (finish (percentEncode keepsOpaque) s)

/-- The text without the controls and blanks at its ends, and without tabs and line ends. -/
def cleaned (s : List Char) : List Char :=
  let low (c : Char) : Bool := c.toNat ≤ 0x20
  ((s.dropWhile low).reverse.dropWhile low).reverse.filter fun c => c ≠ '\t' && c ≠ '\n' && c ≠ '\r'

/-- Reads a URL. With `base`, a text without a scheme is relative to the root of an `http` origin. -/
def read (base : Bool) (s : List Char) : Except UrlFault Address :=
  let s := cleaned s
  match scheme? s with
  | some (scheme, rest) => readScheme base scheme rest
  | none => if base then readRelative s else .error .noBase

/-! ### Queries -/

/-- A name or value of a query: a plus is a blank, the rest is percent-decoded. -/
def decodeWord (s : List Char) : List Char :=
  decodeLossy (percentDecode (utf8 (s.map fun c => if c = '+' then ' ' else c)))

/-- The pairs of a query, empty ones left out. -/
def pairs (query : List Char) : List (List Char × List Char) :=
  ((split '&' query).filter (· ≠ [])).map fun p =>
    match cut? '=' p with
    | some (k, v) => (decodeWord k, decodeWord v)
    | none => (decodeWord p, [])

/-- The first value of a name in the query. -/
def value? (a : Address) (name : List Char) : Option (List Char) := do
  let query ← a.query
  let (_, v) ← (pairs query).find? (·.1 = name)
  some v

example : (read false "https://h:8443/a/../b c?x#y".toList).toOption.map (·.path) =
    some "/b%20c".toList := by decide +kernel

end Address
end MockRedirect
