import MockRedirect.Text.Normal
import MockRedirect.Text.Percent
import MockRedirect.Text.Pieces
import MockRedirect.Url.Domain.Encoded
import MockRedirect.Url.Domain.Fold
import MockRedirect.Url.Domain.Joiner
import MockRedirect.Url.Domain.OneWay
import MockRedirect.Url.Fault
/-! Domain names: their labels, and what makes a name invalid. -/
namespace MockRedirect.Domain
open Text

/-- The ASCII characters that end or break a host. -/
def isForbidden (c : Char) : Bool :=
  c.toNat ≤ 0x20 || c.toNat == 0x7F || "%#/:<>?@[\\]^|".toList.contains c

/-- The longest label with other characters than ASCII, so that encoding it stays cheap. -/
def labelLimit : Nat := 1000

/-- Whether a label can stand in a domain name. -/
def isLabel (s : List Char) : Bool :=
  !s.any isForbidden && !s.any isRefused && !s.head?.any isMark && joinersFit [] s &&
    (isAscii s || s.length ≤ labelLimit)

/-- What a label stands for: itself, or what is encoded after the mark `xn--`. That is not ASCII
alone and already in the form that a name is brought to. -/
def readLabel? (s : List Char) : Option (List Char) :=
  match after? "xn--".toList s with
  | none => some s
  | some code => do
    let t ← decodeLabel? code
    if isAscii s ∧ ¬isAscii t ∧ t.all isFolded ∧ normal t = t then some t else none

/-- Whether labels make up a domain name. If one of them has text written from right to left, each
reads one way. -/
def isName (labels : List (List Char)) : Bool :=
  labels.all isLabel && (!labels.any hasRight || labels.all isOneWay)

/-- The labels of a domain name given with percent-encoding; encoded ones stay encoded. -/
def labels (host : List Char) : Except UrlFault (List (List Char)) :=
  match decode (percentDecode (utf8 host)) with
  | .error _ => .error .badDomain
  | .ok s =>
    let ls := split '.' (normal (s.flatMap fold))
    if (ls.mapM readLabel?).any isName then .ok ls else .error .badDomain

end MockRedirect.Domain
