import MockRedirect.Decimal.Binary64
/-! JSON trees whose objects keep their members in order. -/
namespace MockRedirect

/-- A JSON tree. An integer of at most 64 bits stays an integer; any other number is a binary64
number. Members stand in the order in which their keys first appeared. -/
inductive Json where
  | null
  | bool (b : Bool)
  | int (n : Int)
  | float (x : Binary64)
  | str (s : String)
  | arr (items : List Json)
  | obj (members : List (String × Json))
  deriving Repr, Inhabited

/-- The members of an object. -/
abbrev Members := List (String × Json)

namespace Members

def get? (key : String) : Members → Option Json
  | [] => none
  | (k, v) :: ms => if k = key then some v else get? key ms

/-- A known key keeps its place and takes the new value; a new key goes to the end. -/
def put (key : String) (value : Json) : Members → Members
  | [] => [(key, value)]
  | (k, v) :: ms => if k = key then (k, value) :: ms else (k, v) :: put key value ms

/-- Every member of `new` put in, one after the other. -/
def putAll (ms new : Members) : Members := new.foldl (fun acc (k, v) => put k v acc) ms

def keys (ms : Members) : List String := ms.map (·.1)

@[simp] theorem get?_nil (key : String) : get? key [] = none := rfl

theorem get?_put (key k : String) (value : Json) (ms : Members) :
    get? k (put key value ms) = if key = k then some value else get? k ms := by
  induction ms with
  | nil => simp [put, get?]
  | cons m ms ih =>
    obtain ⟨a, b⟩ := m
    by_cases h : a = key
    · by_cases hk : key = k <;> simp_all [put, get?]
    · by_cases hk : a = k
      · subst hk; simp [put, get?, h, Ne.symm h]
      · simp [put, get?, h, hk, ih]

theorem get?_putAll_of_notMem {k : String} {new : Members} (h : k ∉ keys new) (ms : Members) :
    get? k (putAll ms new) = get? k ms := by
  induction new generalizing ms with
  | nil => rfl
  | cons m new ih =>
    rw [keys, List.map_cons, List.mem_cons, not_or] at h
    exact (ih h.2 _).trans ((get?_put ..).trans (if_neg (Ne.symm h.1)))

theorem keys_put_of_mem {key : String} {ms : Members} (h : key ∈ keys ms) (value : Json) :
    keys (put key value ms) = keys ms := by
  induction ms with
  | nil => simp [keys] at h
  | cons m ms ih =>
    obtain ⟨a, b⟩ := m
    by_cases ha : a = key
    · simp [put, keys, ha]
    · have : key ∈ keys ms := by
        simp only [keys, List.map_cons, List.mem_cons] at h
        exact h.resolve_left (Ne.symm ha)
      simp only [put, if_neg ha]
      simpa [keys] using ih this

end Members

namespace Json

/-- The value under `key`, if the tree is an object that has it. -/
def field? (key : String) : Json → Option Json
  | .obj ms => Members.get? key ms
  | _ => none

/-- The element at `i`, if the tree is an array that is long enough. -/
def item? (i : Nat) : Json → Option Json
  | .arr xs => xs[i]?
  | _ => none

def isBool : Json → Bool
  | .bool _ => true
  | _ => false

def isArray : Json → Bool
  | .arr _ => true
  | _ => false

mutual
/-- The tree with every repeated key merged: it keeps its first place and its last value. -/
def merged : Json → Json
  | .arr xs => .arr (mergedItems xs)
  | .obj ms => .obj (Members.putAll [] (mergedMembers ms))
  | v => v
def mergedItems : List Json → List Json
  | [] => []
  | v :: vs => v.merged :: mergedItems vs
def mergedMembers : Members → Members
  | [] => []
  | (k, v) :: ms => (k, v.merged) :: mergedMembers ms
end

mutual
/-- The tree without the members whose key satisfies `drop`, at every depth. -/
def prune (drop : String → Bool) : Json → Json
  | .arr xs => .arr (pruneItems drop xs)
  | .obj ms => .obj (pruneMembers drop ms)
  | v => v
def pruneItems (drop : String → Bool) : List Json → List Json
  | [] => []
  | v :: vs => v.prune drop :: pruneItems drop vs
def pruneMembers (drop : String → Bool) : Members → Members
  | [] => []
  | (k, v) :: ms => if drop k then pruneMembers drop ms else (k, v.prune drop) :: pruneMembers drop ms
end

end Json
end MockRedirect
