import MockRedirect.Decimal.Written
import MockRedirect.Text.Quoted
/-! What can be wrong with a JSON document or with the record it should hold, and where. -/
namespace MockRedirect

/-- The kind of value met where another one was expected. -/
inductive Found where
  | null
  | bool (b : Bool)
  | int (n : Int)
  | float (x : Binary64)
  | str (s : String)
  | sequence
  | map
  deriving DecidableEq, Repr

namespace Found

def message : Found → String
  | null => "null"
  | bool true => "boolean `true`"
  | bool false => "boolean `false`"
  | int n => "integer `" ++ String.ofList (intText n) ++ "`"
  | float x => "floating point `" ++ String.ofList x.text ++ "`"
  | str s => "string " ++ Text.quoted s
  | sequence => "sequence"
  | map => "map"

end Found

/-- The cause of a refusal: first those of the grammar, then those of the expected shape. -/
inductive Fault where
  | endInValue
  | endInList
  | endInObject
  | endInString
  | expectedColon
  | expectedListEnd
  | expectedObjectEnd
  | expectedWord
  | expectedValue
  | badEscape
  | badNumber
  | numberTooLarge
  | loneSurrogate
  | halfSurrogate
  | controlCharacter
  | keyNotString
  | trailingComma
  | trailingText
  | tooDeep
  | wrongType (found : Found) (expected : String)
  | wrongValue (found : Found) (expected : String)
  | wrongLength (length : Nat) (expected : String)
  | unknownVariant (name : String) (known : List String)
  | missingField (name : String)
  | repeatedField (name : String)
  | noIdForm
  | idNotNumeric (text : String)
  deriving DecidableEq, Repr

namespace Fault

/-- The names a variant could have had. -/
def alternatives : List String → String
  | [] => "there are no variants"
  | [a] => "expected `" ++ a ++ "`"
  | [a, b] => "expected `" ++ a ++ "` or `" ++ b ++ "`"
  | names => "expected one of " ++ String.intercalate ", " (names.map fun n => "`" ++ n ++ "`")

def message : Fault → String
  | endInValue => "EOF while parsing a value"
  | endInList => "EOF while parsing a list"
  | endInObject => "EOF while parsing an object"
  | endInString => "EOF while parsing a string"
  | expectedColon => "expected `:`"
  | expectedListEnd => "expected `,` or `]`"
  | expectedObjectEnd => "expected `,` or `\x7d`"
  | expectedWord => "expected ident"
  | expectedValue => "expected value"
  | badEscape => "invalid escape"
  | badNumber => "invalid number"
  | numberTooLarge => "number out of range"
  | loneSurrogate => "lone leading surrogate in hex escape"
  | halfSurrogate => "unexpected end of hex escape"
  | controlCharacter => "control character (\\u0000-\\u001F) found while parsing a string"
  | keyNotString => "key must be a string"
  | trailingComma => "trailing comma"
  | trailingText => "trailing characters"
  | tooDeep => "recursion limit exceeded"
  | wrongType found expected => "invalid type: " ++ found.message ++ ", expected " ++ expected
  | wrongValue found expected => "invalid value: " ++ found.message ++ ", expected " ++ expected
  | wrongLength n expected =>
    "invalid length " ++ String.ofList (natDigits n) ++ ", expected " ++ expected
  | unknownVariant name known => "unknown variant `" ++ name ++ "`, " ++ alternatives known
  | missingField name => "missing field `" ++ name ++ "`"
  | repeatedField name => "duplicate field `" ++ name ++ "`"
  | noIdForm => "data did not match any variant of untagged enum RawMockId"
  | idNotNumeric text => "mock id " ++ Text.quoted text ++ " is not numeric"

end Fault

/-- The size of a text in UTF-8. -/
def byteSize (s : List Char) : Nat := s.foldr (fun c n => c.utf8Size + n) 0

/-- A line, counted from one, and the bytes of it already read. -/
structure Position where
  line : Nat
  column : Nat
  deriving DecidableEq, Repr

namespace Position

/-- The position after the first `n` bytes of a text. -/
def after (s : List Char) (n : Nat) : Position :=
  go s n ⟨1, 0⟩
where
  go : List Char → Nat → Position → Position
    | [], _, p => p
    | c :: cs, n, p =>
      if n = 0 then p
      else if c = '\n' then go cs (n - 1) ⟨p.line + 1, 0⟩
      else if n < c.utf8Size then ⟨p.line, p.column + n⟩
      else go cs (n - c.utf8Size) ⟨p.line, p.column + c.utf8Size⟩

end Position

/-- A fault and, where one is known, the place in the text at which it was noticed. -/
structure JsonError where
  fault : Fault
  position : Option Position
  deriving DecidableEq, Repr

namespace JsonError

def message (e : JsonError) : String :=
  match e.position with
  | none => e.fault.message
  | some p =>
    e.fault.message ++ " at line " ++ String.ofList (natDigits p.line) ++ " column " ++
      String.ofList (natDigits p.column)

end JsonError
end MockRedirect
