import MockRedirect.Text.Case
import MockRedirect.Url.Domain.Refused
import MockRedirect.Url.Domain.Shift
import MockRedirect.Url.Domain.Spelling
/-! What the characters of a domain name stand for. -/
namespace MockRedirect.Domain
open Text

/-- What a character becomes: nothing, another spelling, or itself. -/
def fold (c : Char) : List Char :=
  if c.toNat < 0x80 then [lower c]
  else if isIgnored c then []
  else
    match shifted? c.toNat with
    | some n => [Char.ofNat n]
    | none => (spelling? c.toNat).getD [c]

/-- Whether a character is its own spelling. -/
def isFolded (c : Char) : Bool := fold c = [c]

example : "Ａ\u00adÉ℡。².".toList.flatMap fold = "aétel.2.".toList := by decide +kernel

end MockRedirect.Domain
