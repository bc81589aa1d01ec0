import MockRedirect.Url.Domain
/-! The host part of a URL: an address in brackets, a number, or a domain name. -/
namespace MockRedirect.Host
open Text

/-! ### IPv6 -/

/-- A part of a dotted address inside an IPv6 address: below 256, without a leading zero. -/
def isByteText (s : List Char) : Bool :=
  s ≠ [] && s.all isAsciiDigit && s.length ≤ 3 && decimal s < 256 &&
    (s.length == 1 || s.head? ≠ some '0')

def isDotted (s : List Char) : Bool :=
  let parts := split '.' s
  parts.length == 4 && parts.all isByteText

def isGroup (s : List Char) : Bool :=
  s ≠ [] && s.length ≤ 4 && s.all fun c => (hexDigit? c).isSome

/-- The number of 16-bit groups in groups joined by colons; only the last may be dotted, and then
counts twice. -/
def groupCount? (dottedLast : Bool) : List (List Char) → Option Nat
  | [] => some 0
  | [g] => if isGroup g then some 1 else if dottedLast && isDotted g then some 2 else none
  | g :: gs => if isGroup g then (groupCount? dottedLast gs).map (· + 1) else none

/-- The text around the first double colon. -/
def cutDouble? : List Char → Option (List Char × List Char)
  | ':' :: ':' :: cs => some ([], cs)
  | c :: cs => (cutDouble? cs).map fun (a, b) => (c :: a, b)
  | [] => none

def groups (s : List Char) : List (List Char) := if s = [] then [] else split ':' s

/-- Eight groups, or fewer with one double colon that stands for at least one. -/
def isIpv6 (s : List Char) : Bool :=
  match cutDouble? s with
  | none => groupCount? true (groups s) == some 8
  | some (a, b) =>
    match groupCount? false (groups a), groupCount? true (groups b) with
    | some m, some n => m + n ≤ 7
    | _, _ => false

/-! ### IPv4 -/

/-- A number of an IPv4 address in decimal, octal or hexadecimal. -/
def number? (s : List Char) : Option Nat :=
  let read (base : Nat) (ds : List Char) : Option Nat :=
    if ds.all fun c => (hexDigit? c).any (· < base) then
      some (ds.foldl (fun n c => n * base + (hexDigit? c).getD 0) 0)
    else none
  match s with
  | [] => none
  | '0' :: 'x' :: ds => read 16 ds
  | '0' :: 'X' :: ds => read 16 ds
  | '0' :: d :: ds => read 8 (d :: ds)
  | ds => read 10 ds

/-- The labels without an empty one at the end. -/
def withoutRoot (ls : List (List Char)) : List (List Char) :=
  if ls.getLast? = some [] then ls.dropLast else ls

/-- A host whose last label is a number is an address, not a name. -/
def endsInNumber (ls : List (List Char)) : Bool :=
  match (withoutRoot ls).getLast? with
  | none => false
  | some l => (l ≠ [] && l.all isAsciiDigit) || (number? l).isSome

/-- Up to four numbers; all but the last are bytes, and the last fills what is left of 32 bits. -/
def isIpv4 (ls : List (List Char)) : Bool :=
  let ls := withoutRoot ls
  ls.length ≤ 4 &&
    match ls.mapM number? with
    | some ns =>
      ns.dropLast.all (· < 256) && ns.getLast?.any (· < Nat.pow 256 (5 - ns.length))
    | none => false

/-! ### Hosts -/

/-- An address in brackets; the opening one has been seen at the front. -/
def checkBracketed (s : List Char) : Except UrlFault Unit :=
  if s.getLast? = some ']' ∧ isIpv6 s.tail.dropLast then .ok () else .error .badIpv6

/-- The host of a URL whose scheme has hosts in the usual sense. -/
def check (s : List Char) : Except UrlFault Unit :=
  if s.head? = some '[' then checkBracketed s
  else
    match Domain.labels s with
    | .error e => .error e
    | .ok ls =>
      if ls = [[]] then .error .emptyHost
      else if endsInNumber ls && !isIpv4 ls then .error .badIpv4
      else .ok ()

/-- The host of any other URL. -/
def checkOpaque (s : List Char) : Except UrlFault Unit :=
  if s.head? = some '[' then checkBracketed s
  else if s.any fun c => "\x00\t\n\r #/:<>?@[\\]^|".toList.contains c then .error .badHostCharacter
  else .ok ()

example : ["::1", "1::", "::", "1:2:3:4:5:6:7::", "::1.2.3.4", "1:2:3:4:5:6:7:8"].all
    (isIpv6 ·.toList) = true := by decide
example : ["", ":", ":::", "1:2:3:4:5:6:7", "1.2.3.4", "::01.2.3.4", "12345::", "1:"].any
    (isIpv6 ·.toList) = false := by decide

end MockRedirect.Host
