import MockRedirect.Json.Decoder
import MockRedirect.Text.Blank
/-! Ids of mocks: how numbers and texts of any size become ids, and how a free id is found. -/
namespace MockRedirect

structure MockId where
  value : Int
  deriving DecidableEq, Repr, Inhabited

namespace MockId

/-- The largest number of 31 bits. -/
def highest : Nat := 2147483647

/-- The ids that a mock can get. -/
def InRange (id : MockId) : Prop := 1 ≤ id.value ∧ id.value ≤ highest

instance (id : MockId) : Decidable id.InRange := inferInstanceAs (Decidable (_ ∧ _))

/-- A number in range is an id as it stands; any other is taken modulo the highest id. -/
def reduce (n : Nat) : MockId := if 1 ≤ n ∧ n ≤ highest then ⟨n⟩ else ⟨(max (n % highest) 1 : Nat)⟩

theorem inRange_reduce (n : Nat) : (reduce n).InRange := by
  unfold reduce InRange highest
  split <;> constructor <;> dsimp only <;> omega

/-- The digits of an id written as text: minus signs in front and dots anywhere do not count. -/
def digits (text : List Char) : List Char :=
  ((Text.trim text).dropWhile (· = '-')).filter (· ≠ '.')

/-- The value of digits; more than thirty of them are taken modulo the highest id on the way. -/
def digitsValue (ds : List Char) : Nat :=
  if 30 < ds.length then ds.foldl (fun n d => (n * 10 + (d.toNat - '0'.toNat)) % highest) 0
  else Text.decimal ds

def ofText (text : String) : Except Fault MockId :=
  let ds := digits text.toList
  if ds ≠ [] ∧ ds.all Text.isAsciiDigit then .ok (reduce (digitsValue ds))
  else .error (.idNotNumeric text)

/-- Numbers lose their sign and their fraction; at most `2 ^ 128 - 1` is left of them. -/
def ofJson : Json → Except Fault MockId
  | .int n => .ok (reduce n.natAbs)
  | .float x => .ok (reduce (min x.magnitude (Nat.pow 2 128 - 1)))
  | .str s => ofText s
  | _ => .error .noIdForm

def toJson (id : MockId) : Json := .int id.value

def decoder : Decoder MockId where
  shape := .checked fun v => (ofJson v).map toJson
  get? := fun
    | .int n => some ⟨n⟩
    | _ => none

/-- The id of the rule that a mock would like to have. -/
def ruleId (id : MockId) : Nat := max (id.value.natAbs % 65535) 1

/-- The id that a number drawn at random gives. -/
def ofSeed (seed : Int) : MockId := ⟨max (seed % highest) 1⟩

/-- The next id; the lowest one follows the highest. -/
def next (id : MockId) : MockId := ⟨id.value % highest + 1⟩

/-- The first id that is not taken, from the one drawn on. -/
def fresh (drawn : MockId) (taken : List MockId) : MockId := go taken.length drawn
where
  go : Nat → MockId → MockId
    | 0, id => id
    | fuel + 1, id => if taken.contains id then go fuel id.next else id

example : (ofText " -1.5 ").toOption = some ⟨15⟩ := by decide +kernel
example : fresh ⟨2147483646⟩ [⟨2147483646⟩, ⟨1⟩, ⟨2147483647⟩] = ⟨2⟩ := by decide +kernel

end MockId
end MockRedirect
