import MockRedirect.Json.Reader
/-! JSON documents by their tokens, and the texts that spell them. What may stand between two tokens, which
members may come on top and whether a comma may trail is up to a style; the strict style is that of plain
JSON. -/
namespace MockRedirect

/-- A JSON document by its tokens, which are kept as they are written. -/
inductive Document where
  /-- A number, or a name such as `null`. -/
  | word (text : List Char)
  /-- A string without its quotes. -/
  | text (body : List Char)
  | list (items : List Document)
  | record (members : List (List Char × Document))
  deriving Repr, Inhabited

/-- The members of a document, with their keys as they are written. -/
abbrev Entries := List (List Char × Document)

namespace Document

def isContainer : Document → Bool
  | .list _ => true
  | .record _ => true
  | _ => false

/-! ### Tokens -/

/-- The characters of numbers and names. -/
def isWordChar (c : Char) : Bool :=
  Text.isAsciiLetter c || Text.isAsciiDigit c || c == '+' || c == '-' || c == '.'

def IsWord (w : List Char) : Prop := w ≠ [] ∧ ∀ c ∈ w, isWordChar c = true

/-- The inside of a string: a backslash takes the next character along, a quote would end it. -/
inductive IsBody : List Char → Prop
  | nil : IsBody []
  | escape (c : Char) {s : List Char} (h : IsBody s) : IsBody ('\\' :: c :: s)
  | char {c : Char} (hquote : c ≠ '"') (hslash : c ≠ '\\') {s : List Char} (h : IsBody s) : IsBody (c :: s)

/-- The value of a word, if it is a number or a name that JSON knows. -/
def wordValue? (w : List Char) : Option Json :=
  match Json.readValue 1 0 w with
  | .ok (v, []) => some v
  | _ => none

/-- The string with this inside, if its escapes are those of JSON. -/
def stringValue? (body : List Char) : Option String :=
  match Json.readString (body ++ ['"']) with
  | .ok (s, []) => some s
  | _ => none

/-! ### Values -/

mutual
/-- The tree of a document, with repeated keys as they are written. -/
def value? : Document → Option Json
  | .word w => wordValue? w
  | .text b => (stringValue? b).map .str
  | .list ds => (itemValues? ds).map .arr
  | .record ms => (memberValues? ms).map .obj
def itemValues? : List Document → Option (List Json)
  | [] => some []
  | d :: ds => do
    let v ← d.value?
    let vs ← itemValues? ds
    some (v :: vs)
def memberValues? : Entries → Option Members
  | [] => some []
  | (k, d) :: ms => do
    let key ← stringValue? k
    let v ← d.value?
    let vs ← memberValues? ms
    some ((key, v) :: vs)
end

mutual
/-- The document without the members whose key, as it is written, satisfies `drop`. -/
def without (drop : List Char → Bool) : Document → Document
  | .word w => .word w
  | .text b => .text b
  | .list ds => .list (itemsWithout drop ds)
  | .record ms => .record (membersWithout drop ms)
def itemsWithout (drop : List Char → Bool) : List Document → List Document
  | [] => []
  | d :: ds => d.without drop :: itemsWithout drop ds
def membersWithout (drop : List Char → Bool) : Entries → Entries
  | [] => []
  | (k, d) :: ms =>
    if drop k then membersWithout drop ms else (k, d.without drop) :: membersWithout drop ms
end

/-! ### Texts -/

/-- How documents are written. -/
structure Style where
  /-- What may stand between two tokens. -/
  gap : List Char → Prop
  /-- The keys of members that may come on top. -/
  extra : List Char → Prop
  /-- The keys of members that may come on top without a value. -/
  bare : List Char → Prop
  /-- Whether a comma may stand before a closing bracket that something else stands before. -/
  trailing : Prop

def IsSpace (s : List Char) : Prop := ∀ c ∈ s, Json.isSpace c = true

/-- Plain JSON. -/
def Style.strict : Style where
  gap := IsSpace
  extra _ := False
  bare _ := False
  trailing := False

/-- The style with blanks for gaps. -/
def Style.blank (st : Style) : Style := { st with gap := IsSpace }

/-- The style with blanks for gaps and no members on top. -/
def Style.plain (st : Style) : Style := { Style.strict with trailing := st.trailing }

/-- The style with blanks for gaps and no trailing commas. -/
def Style.closed (st : Style) : Style := { st with gap := IsSpace, trailing := False }

/-- What a text can spell: a document, or what is left of a list or record up to and with its closing
bracket. The text starts with an element or member, or, for `moreItems` and `moreMembers`, behind one. -/
inductive Part where
  | value (d : Document)
  | items (ds : List Document)
  | moreItems (ds : List Document)
  | members (ms : Entries)
  | moreMembers (ms : Entries)

/-- A text spells a part of a document. Neither starts nor ends with a gap. -/
inductive Spells (st : Style) : List Char → Part → Prop
  | word {w : List Char} (hw : IsWord w) : Spells st w (.value (.word w))
  | text {b : List Char} (hb : IsBody b) : Spells st ('"' :: (b ++ ['"'])) (.value (.text b))
  | emptyList {g : List Char} (hg : st.gap g) : Spells st ('[' :: (g ++ [']'])) (.value (.list []))
  | list {g s : List Char} {ds : List Document} (hg : st.gap g) (hs : Spells st s (.items ds)) :
    Spells st ('[' :: (g ++ s)) (.value (.list ds))
  | emptyRecord {g : List Char} (hg : st.gap g) :
    Spells st ('\x7b' :: (g ++ ['\x7d'])) (.value (.record []))
  | record {g s : List Char} {ms : Entries} (hg : st.gap g) (hs : Spells st s (.members ms)) :
    Spells st ('\x7b' :: (g ++ s)) (.value (.record ms))
  | item {s g t : List Char} {d : Document} {ds : List Document} (hs : Spells st s (.value d))
    (hg : st.gap g) (ht : Spells st t (.moreItems ds)) : Spells st (s ++ (g ++ t)) (.items (d :: ds))
  | lastItem : Spells st [']'] (.moreItems [])
  | trailingItem {g : List Char} (htrail : st.trailing) (hg : st.gap g) :
    Spells st (',' :: (g ++ [']'])) (.moreItems [])
  | nextItem {g s : List Char} {ds : List Document} (hg : st.gap g) (hs : Spells st s (.items ds)) :
    Spells st (',' :: (g ++ s)) (.moreItems ds)
  | member {k g₁ g₂ s g₃ t : List Char} {d : Document} {ms : Entries} (hk : IsBody k) (hg₁ : st.gap g₁)
    (hg₂ : st.gap g₂) (hs : Spells st s (.value d)) (hg₃ : st.gap g₃)
    (ht : Spells st t (.moreMembers ms)) :
    Spells st ('"' :: (k ++ '"' :: (g₁ ++ ':' :: (g₂ ++ (s ++ (g₃ ++ t)))))) (.members ((k, d) :: ms))
  | extra {k g₁ g₂ s g₃ t : List Char} {d : Document} {ms : Entries} (hk : IsBody k) (hx : st.extra k)
    (hg₁ : st.gap g₁) (hg₂ : st.gap g₂) (hs : Spells st s (.value d)) (hg₃ : st.gap g₃)
    (ht : Spells st t (.moreMembers ms)) :
    Spells st ('"' :: (k ++ '"' :: (g₁ ++ ':' :: (g₂ ++ (s ++ (g₃ ++ t)))))) (.members ms)
  | bare {k g₁ g₂ t : List Char} {ms : Entries} (hk : IsBody k) (hx : st.bare k) (hg₁ : st.gap g₁)
    (hg₂ : st.gap g₂) (ht : Spells st t (.moreMembers ms)) :
    Spells st ('"' :: (k ++ '"' :: (g₁ ++ ':' :: (g₂ ++ t)))) (.members ms)
  | lastMember : Spells st ['\x7d'] (.moreMembers [])
  | trailingMember {g : List Char} (htrail : st.trailing) (hg : st.gap g) :
    Spells st (',' :: (g ++ ['\x7d'])) (.moreMembers [])
  | nextMember {g s : List Char} {ms : Entries} (hg : st.gap g) (hs : Spells st s (.members ms)) :
    Spells st (',' :: (g ++ s)) (.moreMembers ms)

/-- A whole text spells a document, with gaps at both ends. -/
def Style.Whole (st : Style) (text : List Char) (d : Document) : Prop :=
  ∃ g s g', text = g ++ (s ++ g') ∧ st.gap g ∧ st.gap g' ∧ Spells st s (.value d)

end Document
end MockRedirect
