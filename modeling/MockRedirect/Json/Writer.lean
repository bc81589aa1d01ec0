import MockRedirect.Json.Basic
import MockRedirect.Decimal.Written
/-! JSON text: the compact form, and the indented form used for files and listings. -/
namespace MockRedirect.Json

/-- Two lower-case hexadecimal digits of a number below 256. -/
def hexPair (n : Nat) : List Char :=
  let d (k : Nat) : Char := if k < 10 then Char.ofNat (48 + k) else Char.ofNat (87 + k)
  [d (n / 16), d (n % 16)]

/-- A quote, a backslash and the control characters below U+0020 are escaped, nothing else. -/
def escape (c : Char) : List Char :=
  if c = '"' then ['\\', '"']
  else if c = '\\' then ['\\', '\\']
  else if c = '\x08' then ['\\', 'b']
  else if c = '\x0c' then ['\\', 'f']
  else if c = '\n' then ['\\', 'n']
  else if c = '\r' then ['\\', 'r']
  else if c = '\t' then ['\\', 't']
  else if c.toNat < 32 then '\\' :: 'u' :: '0' :: '0' :: hexPair c.toNat
  else [c]

def quoted (s : String) : List Char := '"' :: s.toList.flatMap escape ++ ['"']

mutual
/-- The compact text, without blanks. -/
def compact : Json → List Char
  | .null => ['n', 'u', 'l', 'l']
  | .bool true => ['t', 'r', 'u', 'e']
  | .bool false => ['f', 'a', 'l', 's', 'e']
  | .int n => intText n
  | .float x => x.text
  | .str s => quoted s
  | .arr [] => ['[', ']']
  | .arr (v :: vs) => '[' :: v.compact ++ compactItems vs
  | .obj [] => ['{', '}']
  | .obj ((k, v) :: ms) => '{' :: quoted k ++ ':' :: v.compact ++ compactMembers ms
/-- The elements after the first one, up to the closing bracket. -/
def compactItems : List Json → List Char
  | [] => [']']
  | v :: vs => ',' :: v.compact ++ compactItems vs
/-- The members after the first one, up to the closing brace. -/
def compactMembers : Members → List Char
  | [] => ['}']
  | (k, v) :: ms => ',' :: quoted k ++ ':' :: v.compact ++ compactMembers ms
end

def indent (depth : Nat) : List Char := '\n' :: List.replicate (2 * depth) ' '

mutual
/-- The indented text: two blanks for each level, empty containers on one line. -/
def pretty (depth : Nat) : Json → List Char
  | .arr [] => ['[', ']']
  | .arr (v :: vs) => '[' :: indent (depth + 1) ++ pretty (depth + 1) v ++ prettyItems depth vs
  | .obj [] => ['{', '}']
  | .obj ((k, v) :: ms) =>
    '{' :: indent (depth + 1) ++ quoted k ++ [':', ' '] ++ pretty (depth + 1) v ++
      prettyMembers depth ms
  | v => v.compact
def prettyItems (depth : Nat) : List Json → List Char
  | [] => indent depth ++ [']']
  | v :: vs => ',' :: indent (depth + 1) ++ pretty (depth + 1) v ++ prettyItems depth vs
def prettyMembers (depth : Nat) : Members → List Char
  | [] => indent depth ++ ['}']
  | (k, v) :: ms =>
    ',' :: indent (depth + 1) ++ quoted k ++ [':', ' '] ++ pretty (depth + 1) v ++
      prettyMembers depth ms
end

def compactText (v : Json) : String := String.ofList v.compact

def prettyText (v : Json) : String := String.ofList (v.pretty 0)

example : compactText (.obj [("a", .arr [.int (-1), .str "q\"\n\x01"]), ("b", .obj [])]) =
    "\x7b\"a\":[-1,\"q\\\"\\n\\u0001\"],\"b\":\x7b\x7d\x7d" := by decide +kernel
example : prettyText (.obj [("a", .arr []), ("b", .arr [.null])]) =
    "\x7b\n  \"a\": [],\n  \"b\": [\n    null\n  ]\n\x7d" := by decide +kernel

end MockRedirect.Json
