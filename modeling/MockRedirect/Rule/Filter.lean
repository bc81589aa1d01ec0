import MockRedirect.Text.Case
import MockRedirect.Text.Pattern
import MockRedirect.Text.Pieces
import MockRedirect.Text.Quoted
/-! URL filters: how they are written, and which URLs they admit. A filter stands for a pattern, and
it admits the URLs that the pattern occurs in. -/
namespace MockRedirect
open Text

/-- A part of a filter: `*` stands for any text without a line feed, `^` for a separator or the end
of the URL, and any other character for itself in either case. -/
inductive Token where
  | any
  | separator
  | char (c : Char)
  deriving DecidableEq, Repr

/-- Where a match may start: anywhere, at the start of the URL (`|`), or at the host or after a dot
in the authority (`||`). -/
inductive Anchor where
  | none
  | start
  | host
  deriving DecidableEq, Repr

structure UrlFilter where
  anchor : Anchor
  tokens : List Token
  atEnd : Bool
  deriving DecidableEq, Repr

inductive FilterFault where
  | empty
  | notAscii
  deriving DecidableEq, Repr

def FilterFault.message : FilterFault → String
  | empty => "empty filter"
  | notAscii => "non-ASCII characters"

structure FilterError where
  filter : String
  fault : FilterFault
  deriving DecidableEq, Repr

def FilterError.message (e : FilterError) : String :=
  "invalid url filter " ++ Text.quoted e.filter ++ ": " ++ e.fault.message

namespace Token

def of (c : Char) : Token := if c = '*' then .any else if c = '^' then .separator else .char c

/-- A character that cannot be part of a name. -/
def isSeparator (c : Char) : Bool :=
  let c := folded c
  !(isAsciiLower c || isAsciiDigit c || c == '_' || c == '-' || c == '.' || c == '%')

def pattern : Token → Pattern
  | any => .many (· ≠ '\n')
  | separator => .either (.one isSeparator) .finish
  | char c => .one (folded · == folded c)

end Token

namespace Anchor

def isSchemeLetter (c : Char) : Bool := isAsciiLower (folded c)

def isSchemeChar (c : Char) : Bool :=
  let c := folded c
  isAsciiLower c || isAsciiDigit c || c == '+' || c == '.' || c == '-'

/-- A character that can stand in an authority. -/
def isInside (c : Char) : Bool := c ≠ '/' && c ≠ '?' && c ≠ '#'

/-- A host begins after the scheme, and again after each dot in the authority. -/
def pattern : Anchor → Pattern
  | none => .empty
  | start => .start
  | host =>
    .chain [.start, .one isSchemeLetter, .many isSchemeChar, .one (· == ':'), .one (· == '/'),
      .one (· == '/'), .either (.chain [.many isInside, .one (· == '.')]) .empty]

end Anchor

namespace UrlFilter

/-- The part of a filter after its anchor. -/
def cutAnchor (s : List Char) : Anchor × List Char :=
  match s with
  | '|' :: '|' :: rest => (.host, rest)
  | '|' :: rest => (.start, rest)
  | rest => (.none, rest)

def parse (text : String) : Except FilterError UrlFilter :=
  let s := text.toList
  if s = [] then .error ⟨text, .empty⟩
  else if !isAscii s then .error ⟨text, .notAscii⟩
  else
    let (anchor, body) := cutAnchor s
    match dropLast? '|' body with
    | some body => .ok ⟨anchor, body.map Token.of, true⟩
    | none => .ok ⟨anchor, body.map Token.of, false⟩

/-- The anchor, the tokens and the end, one after the other. -/
def pattern (f : UrlFilter) : Pattern :=
  .chain (f.anchor.pattern :: f.tokens.map Token.pattern ++ [if f.atEnd then .finish else .empty])

def admits (f : UrlFilter) (url : String) : Bool := f.pattern.isIn url.toList

example : ((parse "||a.com^*x|").toOption.map fun f =>
    ["http://a.com/x", "http://b.A.com?1x", "http://xa.com/x", "http://a.com/xy"].map f.admits) =
    some [true, true, false, false] := by decide +kernel

end UrlFilter
end MockRedirect
