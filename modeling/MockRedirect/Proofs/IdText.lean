import MockRedirect.Proofs.Normal
import MockRedirect.Proofs.PathText
import MockRedirect.Proofs.RoundTrip
/-! Ids that are written as text. Which id a text gives depends on the number in it and not on how this is written,
with one exception: more than thirty digits are folded on the way, and the highest id is lost in that. -/
namespace MockRedirect
open Text

variable {c : Char} {ds document : List Char} {k m n : Nat} {v : Json} {id : MockId} {text : String} {folds : Bool}

/-! ### Digits -/

theorem digit_le (h : isAsciiDigit c = true) : c.toNat - '0'.toNat ≤ 9 := by
  simp only [isAsciiDigit, Bool.and_eq_true, decide_eq_true_eq, Char.le_def, UInt32.le_iff_toNat_le] at h
  have hnine : c.toNat ≤ '9'.toNat := h.2
  have hzero : '9'.toNat - '0'.toNat = 9 := rfl
  omega

/-- Digits may be folded on the way. -/
theorem foldl_mod (m : Nat) (ds : List Char) :
    ds.foldl (fun n d => (n * 10 + (d.toNat - '0'.toNat)) % m) 0 = decimal ds % m := by
  have hfold : ds.foldl (fun n d => (n * 10 + (d.toNat - '0'.toNat)) % m) (0 % m) = decimal ds % m :=
    List.foldl_hom (· % m) fun n d => by simp [Nat.add_mod, Nat.mul_mod]
  rwa [Nat.zero_mod] at hfold

namespace MockId

/-! ### Arithmetic of 128 bits -/

/-- A number, if it has no more than 128 bits. -/
def within128? (n : Nat) : Option Nat := if n < Nat.pow 2 128 then some n else none

/-- One more digit behind a number, in steps of which none may exceed 128 bits. -/
def addDigit? (folds : Bool) (n : Nat) (d : Char) : Option Nat := do
  let shifted ← within128? (n * 10)
  let next ← within128? (shifted + (d.toNat - '0'.toNat))
  some (if folds then next % highest else next)

theorem addDigit?_eq_some (hc : isAsciiDigit c = true) (hn : (n + 1) * 10 ≤ Nat.pow 2 128) (folds : Bool) :
    addDigit? folds n c = some (if folds then (n * 10 + (c.toNat - '0'.toNat)) % highest
      else n * 10 + (c.toNat - '0'.toNat)) := by
  have hdigit := digit_le hc
  have hshifted : within128? (n * 10) = some (n * 10) := if_pos (by omega)
  have hnext : within128? (n * 10 + (c.toNat - '0'.toNat)) = some (n * 10 + (c.toNat - '0'.toNat)) :=
    if_pos (by omega)
  rw [addDigit?, hshifted, Option.bind_eq_bind, Option.bind_some, hnext]
  rfl

theorem foldlM_addDigit? (hds : ∀ c ∈ ds, isAsciiDigit c = true) (hn : (n + 1) * Nat.pow 10 ds.length ≤ Nat.pow 2 128) :
    ds.foldlM (addDigit? false) n = some (ds.foldl (fun n d => n * 10 + (d.toNat - '0'.toNat)) n) := by
  induction ds generalizing n with
  | nil => rfl
  | cons d ds ih =>
    rw [List.forall_mem_cons] at hds
    have hdigit := digit_le hds.1
    have hpow : Nat.pow 10 (ds.length + 1) = 10 * Nat.pow 10 ds.length := Nat.pow_succ'
    have hpos : 0 < Nat.pow 10 ds.length := Nat.pow_pos (by decide)
    rw [List.length_cons, hpow, ← Nat.mul_assoc] at hn
    have hstep : (n + 1) * 10 ≤ Nat.pow 2 128 := (Nat.le_mul_of_pos_right _ hpos).trans hn
    have hnext : n * 10 + (d.toNat - '0'.toNat) + 1 ≤ (n + 1) * 10 := by omega
    rw [List.foldlM_cons, addDigit?_eq_some hds.1 hstep]
    exact ih hds.2 ((Nat.mul_le_mul_right _ hnext).trans hn)

theorem foldlM_addDigit?_folds (hds : ∀ c ∈ ds, isAsciiDigit c = true) (hn : n < highest) :
    ds.foldlM (addDigit? true) n = some (ds.foldl (fun n d => (n * 10 + (d.toNat - '0'.toNat)) % highest) n) := by
  induction ds generalizing n with
  | nil => rfl
  | cons d ds ih =>
    rw [List.forall_mem_cons] at hds
    have hstep : (n + 1) * 10 ≤ Nat.pow 2 128 := by
      have hhigh : (highest + 1) * 10 ≤ Nat.pow 2 128 := by decide
      omega
    rw [List.foldlM_cons, addDigit?_eq_some hds.1 hstep]
    exact ih hds.2 (Nat.mod_lt _ (by decide))

/-- The value of digits is found without a number of more than 128 bits. -/
theorem foldlM_digitsValue (hds : ∀ c ∈ ds, isAsciiDigit c = true) :
    ds.foldlM (addDigit? (30 < ds.length)) 0 = some (digitsValue ds) := by
  rw [digitsValue]
  split
  · next hlong =>
    rw [decide_eq_true hlong]
    exact foldlM_addDigit?_folds hds (by decide)
  · next hshort =>
    rw [decide_eq_false hshort]
    have hpow : Nat.pow 10 ds.length ≤ Nat.pow 10 30 := Nat.pow_le_pow_right (by decide) (by omega)
    have hbound : Nat.pow 10 30 ≤ Nat.pow 2 128 := by decide
    exact foldlM_addDigit? hds (by omega)

/-! ### Reduction -/

/-- To fold a number changes its id only if it is the highest id. -/
theorem reduce_mod (h : n ≠ highest) : reduce (n % highest) = reduce n := by
  have hlt : n % highest < highest := Nat.mod_lt _ (by decide)
  by_cases hn : n < highest
  · rw [Nat.mod_eq_of_lt hn]
  · have hlarge : ¬(1 ≤ n ∧ n ≤ highest) := by omega
    rw [reduce, reduce, if_neg hlarge, Nat.mod_mod]
    split
    · next hpos => rw [max_eq_left hpos.1]
    · rfl

/-- The highest id in so many digits that these are folded: nothing is left of it. -/
def IsLost (ds : List Char) : Prop := decimal ds = highest ∧ 30 < ds.length

theorem reduce_digitsValue (h : ¬IsLost ds) : reduce (digitsValue ds) = reduce (decimal ds) := by
  rw [digitsValue]
  split
  · next hlong => rw [foldl_mod, reduce_mod fun heq => h ⟨heq, hlong⟩]
  · rfl

theorem IsLost.reduce_digitsValue (h : IsLost ds) : reduce (digitsValue ds) = ⟨1⟩ := by
  rw [digitsValue, if_pos h.2, foldl_mod, h.1]
  rfl

theorem value_reduce (n : Nat) :
    (reduce n).value = (if 1 ≤ n ∧ n ≤ highest then n else max 1 (n % highest) : Nat) := by
  rw [reduce]
  split
  · rfl
  · rw [max_comm]

/-! ### Documents -/

theorem ofJson_merged (v : Json) : ofJson v.merged = ofJson v := by
  cases v <;> simp [Json.merged, ofJson]

/-- An id is read from a document exactly if the tree of the document stands for it. -/
theorem parse_eq_ok : decoder.parse document = .ok id ↔ ∃ v, Json.parse document = .ok v ∧ ofJson v = .ok id := by
  have hread (d : Nat) (s : List Char) : Shape.read decoder.shape d s =
      Shape.checkRead (fun v => (ofJson v).map toJson) (Json.readRaw d s) := by
    rw [decoder, Shape.read]
  rw [Decoder.parse, Shape.readDocument, Json.parse, Json.readDocument, Json.readDocument, Json.readTree, hread]
  cases Json.readRaw Json.depthLimit document with
  | error e => simp [Shape.checkRead, bind, Except.bind]
  | ok r =>
    obtain ⟨v, rest⟩ := r
    have hmerged := ofJson_merged v
    simp only [Shape.checkRead, bind, Except.bind]
    cases hid : ofJson v with
    | error e =>
      rw [hid] at hmerged
      cases Json.skipSpace rest <;> simp [Except.map, hmerged]
    | ok id' =>
      rw [hid] at hmerged
      cases hrest : Json.skipSpace rest <;> simp [Except.map, hmerged, hrest, toJson, decoder]

theorem parse_intText {k : Int} (h : (Json.int k).Short) : Json.parse (intText k) = .ok (.int k) :=
  Json.parse_pretty (v := .int k) (.scalar trivial (Json.lasting_int (h k rfl).1 (h k rfl).2)) (Nat.zero_le _)

theorem parse_quoted (text : String) : Json.parse (Json.quoted text) = .ok (.str text) :=
  Json.parse_pretty (v := .str text) (.scalar trivial (Json.lasting_str text)) (Nat.zero_le _)

/-- The digits of a text that is an id: minus signs in front of them, dots between them and blanks around them do not
count. -/
structure Numeral (text : String) (ds : List Char) : Prop where
  digits_eq : digits text.toList = ds
  ne_nil : ds ≠ []
  isDigit : ∀ c ∈ ds, isAsciiDigit c = true

theorem ofText_eq_ok : ofText text = .ok id ↔ ∃ ds, Numeral text ds ∧ reduce (digitsValue ds) = id := by
  rw [ofText]
  split
  · next hds =>
    constructor
    · intro h
      exact ⟨_, ⟨rfl, hds.1, List.all_eq_true.1 hds.2⟩, Except.ok.inj h⟩
    · rintro ⟨_, ⟨rfl, -, -⟩, rfl⟩
      rfl
  · next hds =>
    refine ⟨fun h => by contradiction, ?_⟩
    rintro ⟨_, ⟨rfl, hne, hall⟩, -⟩
    exact absurd ⟨hne, List.all_eq_true.2 hall⟩ hds

/-- A text is an id exactly if it holds a number and nothing else that counts. Its id is the number if that is in
range, and otherwise the number modulo the highest id, but at least one; no step of the reading exceeds 128 bits, and an
integer of the same size gives the same id, whatever its sign. The one exception is the highest id written with more than
thirty digits: it becomes one. -/
theorem parse_numeral (h : Json.parse document = .ok (.str text)) :
    (∀ id, decoder.parse document = .ok id → ∃ ds, Numeral text ds) ∧
      ∀ ds, Numeral text ds → ∃ id, decoder.parse document = .ok id ∧ id.InRange ∧
        ds.foldlM (addDigit? (30 < ds.length)) 0 = some (digitsValue ds) ∧
        (IsLost ds → id = ⟨1⟩) ∧
        (¬IsLost ds →
          id.value = (if 1 ≤ decimal ds ∧ decimal ds ≤ highest then decimal ds
            else max 1 (decimal ds % highest) : Nat) ∧
          ∀ k : Int, k.natAbs = decimal ds →
            (∀ other, Json.parse other = .ok (.int k) → decoder.parse other = .ok id) ∧
            ((Json.int k).Short → Json.parse (intText k) = .ok (.int k))) := by
  constructor
  · intro id hid
    obtain ⟨v, hv, hid⟩ := parse_eq_ok.1 hid
    cases h.symm.trans hv
    obtain ⟨ds, hds, -⟩ := ofText_eq_ok.1 hid
    exact ⟨ds, hds⟩
  · intro ds hds
    refine ⟨reduce (digitsValue ds), parse_eq_ok.2 ⟨_, h, ofText_eq_ok.2 ⟨ds, hds, rfl⟩⟩, inRange_reduce _,
      foldlM_digitsValue hds.isDigit, IsLost.reduce_digitsValue, fun hkept => ?_⟩
    rw [reduce_digitsValue hkept]
    refine ⟨value_reduce _, fun k hk => ⟨fun other hother => ?_, parse_intText⟩⟩
    exact parse_eq_ok.2 ⟨_, hother, by rw [ofJson, hk]⟩

/-- An older id, written with a sign, a dot and blanks, and as an integer. -/
theorem parse_numeral_old :
    Json.parse (Json.quoted " -1718000123456.789 ") = .ok (.str " -1718000123456.789 ") ∧
      Numeral " -1718000123456.789 " "1718000123456789".toList ∧ ¬IsLost "1718000123456789".toList ∧
      decoder.parse (Json.quoted " -1718000123456.789 ") = .ok ⟨320954907⟩ ∧
      decoder.parse (intText (-1718000123456789)) = .ok ⟨320954907⟩ := by
  have hdocument := parse_quoted " -1718000123456.789 "
  have hds : Numeral " -1718000123456.789 " "1718000123456789".toList :=
    ⟨by decide +kernel, by decide +kernel, forall_mem_of_all (by decide +kernel)⟩
  have hkept : ¬IsLost "1718000123456789".toList := by
    rintro ⟨-, hlong⟩
    exact absurd hlong (by decide +kernel)
  obtain ⟨id, hid, -, -, -, hvalue⟩ := (parse_numeral hdocument).2 _ hds
  obtain ⟨hvalue, hint⟩ := hvalue hkept
  obtain rfl : id = ⟨320954907⟩ := congrArg MockId.mk (hvalue.trans (by decide +kernel))
  have hshort : (Json.int (-1718000123456789)).Short := by
    rintro _ ⟨⟩
    decide
  obtain ⟨hother, hparse⟩ := hint (-1718000123456789) (by decide +kernel)
  exact ⟨hdocument, hds, hkept, hid, hother _ (hparse hshort)⟩

/-- The highest id, with zeros in front of it. -/
def padded : String := "0000000000000000000002147483647"

theorem not_parse_numeral_padded : Json.parse (Json.quoted padded) = .ok (.str padded) ∧
    Numeral padded padded.toList ∧ decimal padded.toList = highest ∧
    decoder.parse (Json.quoted padded) = .ok ⟨1⟩ ∧ decoder.parse (intText highest) = .ok ⟨highest⟩ := by
  have hnumeral : Numeral padded padded.toList :=
    ⟨by decide +kernel, by decide +kernel, forall_mem_of_all (by decide +kernel)⟩
  have hshort : (Json.int highest).Short := by
    rintro _ ⟨⟩
    decide
  exact ⟨parse_quoted padded, hnumeral, by decide +kernel,
    parse_eq_ok.2 ⟨_, parse_quoted padded, by decide +kernel⟩, parse_eq_ok.2 ⟨_, parse_intText hshort, rfl⟩⟩

end MockId
end MockRedirect
