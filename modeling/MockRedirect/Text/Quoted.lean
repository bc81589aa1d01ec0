import MockRedirect.Text.Unseen
/-! Texts in double quotes, as messages and listings show them. -/
namespace MockRedirect.Text

/-- The lower-case hexadecimal digits of a number, at least one. -/
def hexText (n : Nat) : List Char := Nat.toDigits 16 n

/-- Quote, backslash and the common controls have short escapes; other characters that would not
be seen are given by code point. -/
def quotedChar (c : Char) : List Char :=
  if c = '\x00' then ['\\', '0']
  else if c = '\t' then ['\\', 't']
  else if c = '\r' then ['\\', 'r']
  else if c = '\n' then ['\\', 'n']
  else if c = '"' then ['\\', '"']
  else if c = '\\' then ['\\', '\\']
  else if isUnseen c then '\\' :: 'u' :: '\x7b' :: hexText c.toNat ++ ['\x7d']
  else [c]

def quoted (s : String) : String :=
  String.ofList ('"' :: s.toList.flatMap quotedChar ++ ['"'])

example : quoted "a\"\x01é\u200b" = "\"a\\\"\\u\x7b1\x7dé\\u\x7b200b\x7d\"" := by decide +kernel

end MockRedirect.Text
