import MockRedirect.Json.Document
import MockRedirect.Proofs.Address
import Mathlib.Data.List.TakeWhile
/-! Numbers in JSON text. A number that is read from a text is read in the same way wherever no further
digit, letter, sign or point follows it; integers of 64 bits are read back, and no other integers are ever
read. -/
namespace MockRedirect.Json
open Text Document

/-- What may stand behind a number or a name: nothing that could be a part of it. -/
def Delimited (s : List Char) : Prop := ∀ c ∈ s.head?, isWordChar c = false

theorem delimited_nil : Delimited [] := by simp [Delimited]

theorem delimited_cons {c : Char} (h : isWordChar c = false) (s : List Char) : Delimited (c :: s) := by
  rintro _ ⟨⟩
  exact h

variable {negative : Bool} {n : Nat} {e : Int} {s rest : List Char} {v : Json}

/-! ### In front of a delimiter -/

theorem isWordChar_of_isAsciiDigit {c : Char} (h : isAsciiDigit c = true) : isWordChar c = true := by
  simp [isWordChar, h]

theorem Delimited.not_digit {r : List Char} (hr : Delimited r) : ∀ c ∈ r.head?, isAsciiDigit c = false := by
  intro c hc
  have hword := hr c hc
  by_contra hd
  rw [isWordChar_of_isAsciiDigit (by simpa using hd)] at hword
  contradiction

/-- What holds of the first character of a text holds of it before any other ending. -/
theorem forall_head_append {q : Char → Prop} {p r r' : List Char} (h : ∀ c ∈ (p ++ r).head?, q c)
    (hr' : ∀ c ∈ r'.head?, q c) : ∀ c ∈ (p ++ r').head?, q c := by
  cases p with
  | nil => exact hr'
  | cons d p => exact h

/-- Digits reach up to what does not start with a digit. -/
theorem span_digits {ds r : List Char} (hds : ∀ c ∈ ds, isAsciiDigit c = true)
    (hr : ∀ c ∈ r.head?, isAsciiDigit c = false) :
    (ds ++ r).takeWhile isAsciiDigit = ds ∧ (ds ++ r).dropWhile isAsciiDigit = r := by
  rw [List.takeWhile_append_of_pos hds, List.dropWhile_append_of_pos hds]
  cases r with
  | nil => simp
  | cons c r => simp [hr c rfl]

/-- A text is its digits in front and something that does not start with one. -/
theorem exists_span_digits (s : List Char) : ∃ ds r, s = ds ++ r ∧ (∀ c ∈ ds, isAsciiDigit c = true) ∧
    ∀ c ∈ r.head?, isAsciiDigit c = false := by
  refine ⟨s.takeWhile isAsciiDigit, s.dropWhile isAsciiDigit, List.takeWhile_append_dropWhile.symm,
    fun c => List.mem_takeWhile_imp, fun c hc => ?_⟩
  have h := List.head?_dropWhile_not isAsciiDigit s
  rw [Option.mem_def] at hc
  simpa [hc] using h

/-- A reader takes the front of a text, and it takes this front wherever a delimiter follows. -/
def Takes (R : List Char → Reading (Json × List Char)) (s rest : List Char) (v : Json) : Prop :=
  ∃ p, s = p ++ rest ∧ (∀ c ∈ p, isWordChar c = true) ∧ ∀ r, Delimited r → R (p ++ r) = .ok (v, r)

/-- A reader that goes on behind another character of the word. -/
theorem Takes.cons {R R' : List Char → Reading (Json × List Char)} {c : Char} (h : Takes R s rest v)
    (hc : isWordChar c = true) (hR : ∀ s, R' (c :: s) = R s) : Takes R' (c :: s) rest v := by
  obtain ⟨p, rfl, hp, hread⟩ := h
  exact ⟨c :: p, rfl, List.forall_mem_cons.2 ⟨hc, hp⟩, fun r hr => (hR _).trans (hread r hr)⟩

/-- A reader that goes on behind digits of the word. -/
theorem Takes.digits {R R' : List Char → Reading (Json × List Char)} {ds : List Char}
    (h : Takes R s rest v) (hds : ∀ c ∈ ds, isAsciiDigit c = true)
    (hs : ∀ c ∈ s.head?, isAsciiDigit c = false)
    (hR : ∀ r, (∀ c ∈ r.head?, isAsciiDigit c = false) → R' (ds ++ r) = R r) :
    Takes R' (ds ++ s) rest v := by
  obtain ⟨p, rfl, hp, hread⟩ := h
  refine ⟨ds ++ p, (List.append_assoc ..).symm, fun c hc => ?_, fun r hr => ?_⟩
  · exact (List.mem_append.1 hc).elim (fun hc => isWordChar_of_isAsciiDigit (hds c hc)) (hp c)
  · rw [List.append_assoc, hR _ (forall_head_append hs hr.not_digit), hread r hr]

/-- A reader that takes nothing more. -/
theorem Takes.nil {R : List Char → Reading (Json × List Char)} (h : ∀ r, Delimited r → R r = .ok (v, r)) :
    Takes R rest rest v :=
  ⟨[], rfl, by simp, h⟩

theorem floatOf_eq_ok {rest' : List Char} (h : floatOf negative n e rest = .ok (v, rest')) :
    rest' = rest ∧ ∀ s, floatOf negative n e s = .ok (v, s) := by
  unfold floatOf at *
  cases hx : scaled negative n e with
  | none =>
    rw [hx] at h
    contradiction
  | some x =>
    rw [hx] at h
    cases h
    exact ⟨rfl, fun s => rfl⟩

theorem wholeNumber_eq_ok {e : Nat} {rest' : List Char}
    (h : wholeNumber negative n e rest = .ok (v, rest')) :
    rest' = rest ∧ ∀ s, wholeNumber negative n e s = .ok (v, s) := by
  unfold wholeNumber at *
  split at h
  · next he =>
    simp only [if_pos he]
    exact floatOf_eq_ok h
  · next he =>
    simp only [if_neg he]
    split at h
    · next hneg =>
      cases h
      exact ⟨rfl, fun s => if_pos hneg⟩
    · next hneg =>
      simp only [if_neg hneg]
      split at h
      · next hn =>
        cases h
        exact ⟨rfl, fun s => if_pos hn⟩
      · next hn =>
        simp only [if_neg hn]
        exact floatOf_eq_ok h

/-- What the digits of an exponent make of `n · 10 ^ e`. -/
theorem readPower_digits {down : Bool} {ds r : List Char} (hne : ds ≠ [])
    (hds : ∀ c ∈ ds, isAsciiDigit c = true) (hr : ∀ c ∈ r.head?, isAsciiDigit c = false) :
    readPower negative n e down (ds ++ r) =
      match exponentDigits 0 ds with
      | .ok k => floatOf negative n (if down then e - k else e + k) r
      | .error unread =>
        if n ≠ 0 && !down then .error (hereAt .numberTooLarge (unread ++ r))
        else .ok (.float ⟨negative, 0, -1074⟩, r) := by
  obtain ⟨htake, hdrop⟩ := span_digits hds hr
  cases ds with
  | nil => contradiction
  | cons d ds =>
    rw [List.cons_append] at *
    have hd : ¬(!isAsciiDigit d) = true := by simp [hds d]
    unfold readPower
    dsimp only
    rewrite [if_neg hd, htake, hdrop]
    rfl

theorem takes_readPower {down : Bool} (h : readPower negative n e down s = .ok (v, rest)) :
    Takes (readPower negative n e down) s rest v := by
  obtain ⟨ds, r, rfl, hds, hr⟩ := exists_span_digits s
  have hne : ds ≠ [] := by
    rintro rfl
    cases r with
    | nil => cases h
    | cons c r =>
      have hc : (!isAsciiDigit c) = true := by simp [hr c rfl]
      rw [List.nil_append, readPower, if_pos hc] at h
      cases h
  rw [readPower_digits hne hds hr] at h
  refine .digits ?_ hds hr fun r' hr' => readPower_digits hne hds hr'
  cases hk : exponentDigits 0 ds with
  | ok k =>
    rw [hk] at h
    obtain ⟨rfl, hfloat⟩ := floatOf_eq_ok h
    exact .nil fun r' _ => hfloat r'
  | error unread =>
    rw [hk] at h
    dsimp only at h
    split at h
    · contradiction
    · next hzero =>
      obtain ⟨rfl, rfl⟩ := Prod.mk.inj (Except.ok.inj h)
      exact .nil fun r' _ => if_neg hzero

theorem readExponent_of_no_sign (h : ∀ c ∈ s.head?, c ≠ '+' ∧ c ≠ '-') :
    readExponent negative n e s = readPower negative n e false s := by
  unfold readExponent
  split
  · exact absurd rfl (h '+' rfl).1
  · exact absurd rfl (h '-' rfl).2
  · rfl

theorem takes_readExponent (h : readExponent negative n e s = .ok (v, rest)) :
    Takes (readExponent negative n e) s rest v := by
  unfold readExponent at h
  split at h
  · exact (takes_readPower h).cons rfl fun _ => rfl
  · exact (takes_readPower h).cons rfl fun _ => rfl
  · next hplus hminus =>
    obtain ⟨p, rfl, hp, hread⟩ := takes_readPower h
    have hhead : ∀ c ∈ (p ++ rest).head?, c ≠ '+' ∧ c ≠ '-' := by
      rintro c hc
      obtain ⟨t, ht⟩ := List.head?_eq_some_iff.1 hc
      exact ⟨fun h => hplus t (h ▸ ht), fun h => hminus t (h ▸ ht)⟩
    refine ⟨p, rfl, hp, fun r hr => ?_⟩
    rw [readExponent_of_no_sign (forall_head_append hhead fun c hc => ?_), hread r hr]
    have hword := hr c hc
    constructor <;> rintro rfl <;> contradiction

theorem readScale_of_no_letter {plain : Reading (Json × List Char)}
    (h : ∀ c ∈ s.head?, c ≠ 'e' ∧ c ≠ 'E') : readScale negative n e s plain = plain := by
  unfold readScale
  split
  · exact absurd rfl (h 'e' rfl).1
  · exact absurd rfl (h 'E' rfl).2
  · rfl

theorem takes_readScale {plain : List Char → Reading (Json × List Char)}
    (h : readScale negative n e s (plain s) = .ok (v, rest))
    (hplain : plain s = .ok (v, rest) → rest = s ∧ ∀ r, plain r = .ok (v, r)) :
    Takes (fun s => readScale negative n e s (plain s)) s rest v := by
  unfold readScale at h
  split at h
  · exact (takes_readExponent h).cons rfl fun _ => rfl
  · exact (takes_readExponent h).cons rfl fun _ => rfl
  · obtain ⟨rfl, hread⟩ := hplain h
    refine .nil fun r hr => (readScale_of_no_letter fun c hc => ?_).trans (hread r)
    have hword := hr c hc
    constructor <;> rintro rfl <;> contradiction

theorem readFraction_of_no_point {e : Nat} (h : ∀ c ∈ s.head?, c ≠ '.') :
    readFraction negative n e s = readScale negative n e s (wholeNumber negative n e s) := by
  unfold readFraction
  split
  · exact absurd rfl (h '.' rfl)
  · rfl

/-- The digits behind the point of a number. -/
theorem readFraction_point {e : Nat} {ds r : List Char} (hds : ∀ c ∈ ds, isAsciiDigit c = true)
    (hr : ∀ c ∈ r.head?, isAsciiDigit c = false) :
    readFraction negative n e ('.' :: (ds ++ r)) =
      if ds = [] then .error (if r = [] then hereAt .endInValue [] else nextAt .badNumber r)
      else
        let p := addDigits n ds
        let k : Int := (e : Int) - (ds.length - p.2.length : Nat)
        readScale negative p.1 k r (floatOf negative p.1 k r) := by
  obtain ⟨htake, hdrop⟩ := span_digits hds hr
  rw [readFraction, htake, hdrop]

theorem takes_readFraction {e : Nat} (h : readFraction negative n e s = .ok (v, rest)) :
    Takes (readFraction negative n e) s rest v := by
  by_cases hpoint : ∃ t, s = '.' :: t
  · obtain ⟨t, rfl⟩ := hpoint
    obtain ⟨ds, r, rfl, hds, hr⟩ := exists_span_digits t
    rw [readFraction_point hds hr] at h
    split at h
    · contradiction
    · next hne =>
      have htakes : Takes (fun s => readFraction negative n e ('.' :: s)) (ds ++ r) rest v :=
        (takes_readScale h floatOf_eq_ok).digits hds hr fun r' hr' =>
          (readFraction_point hds hr').trans (if_neg hne)
      exact htakes.cons rfl fun _ => rfl
  · have hhead : ∀ c ∈ s.head?, c ≠ '.' := by
      rintro c hc rfl
      exact hpoint (List.head?_eq_some_iff.1 hc)
    rw [readFraction_of_no_point hhead] at h
    obtain ⟨p, rfl, hp, hread⟩ := takes_readScale h wholeNumber_eq_ok
    refine ⟨p, rfl, hp, fun r hr => ?_⟩
    rw [readFraction_of_no_point (forall_head_append hhead fun c hc => ?_)]
    · exact hread r hr
    · have hword := hr c hc
      rintro rfl
      contradiction

/-- The digits of the integer part of a number. -/
theorem readNumber_digits {d : Char} {ds r : List Char} (hds : ∀ c ∈ d :: ds, isAsciiDigit c = true)
    (hr : ∀ c ∈ r.head?, isAsciiDigit c = false) :
    readNumber negative (d :: ds ++ r) =
      if d = '0' then
        if ds = [] then readFraction negative 0 0 r else .error (nextAt .badNumber (ds ++ r))
      else
        let p := addDigits 0 (d :: ds)
        readFraction negative p.1 p.2.length r := by
  obtain ⟨htake, hdrop⟩ := span_digits hds hr
  have hd : ¬(!isAsciiDigit d) = true := by simp [hds d]
  have hnext : (ds ++ r).head?.any isAsciiDigit = !decide (ds = []) := by
    cases ds with
    | nil =>
      cases r with
      | nil => rfl
      | cons c r => simp [hr c rfl]
    | cons c ds => simp [hds c]
  rw [List.cons_append] at *
  unfold readNumber
  dsimp only
  rw [if_neg hd, htake, hdrop, hnext]
  by_cases hnil : ds = [] <;> simp [hnil]

/-- The text of a number is the same wherever it stands. -/
theorem takes_readNumber (h : readNumber negative s = .ok (v, rest)) :
    Takes (readNumber negative) s rest v := by
  obtain ⟨ds, r, rfl, hds, hr⟩ := exists_span_digits s
  cases ds with
  | nil =>
    cases r with
    | nil => cases h
    | cons c r =>
      have hc : (!isAsciiDigit c) = true := by simp [hr c rfl]
      rw [List.nil_append, readNumber, if_pos hc] at h
      cases h
  | cons d ds =>
    rw [readNumber_digits hds hr] at h
    split at h
    · next hzero =>
      split at h
      · next hnil =>
        refine (takes_readFraction h).digits hds hr fun r' hr' => ?_
        rw [readNumber_digits hds hr', if_pos hzero, if_pos hnil]
      · contradiction
    · next hzero =>
      refine (takes_readFraction h).digits hds hr fun r' hr' => ?_
      rw [readNumber_digits hds hr', if_neg hzero]

/-! ### Digits -/

theorem isAsciiDigit_of_mem_natDigits {c : Char} (h : c ∈ natDigits n) : isAsciiDigit c = true := by
  have hc : c.isDigit = true := Nat.isDigit_of_mem_toDigits (by decide) (by decide) h
  simpa [isAsciiDigit, Char.isDigit, Char.le_def] using hc

/-- A positive number is written without zeros in front. -/
theorem head_natDigits (h : n ≠ 0) : ∀ c ∈ (natDigits n).head?, c ≠ '0' := by
  induction n using Nat.strongRecOn with
  | ind n ih =>
    intro c hc
    by_cases hn : n < 10
    · rw [natDigits, Nat.toDigits_of_lt_base hn] at hc
      cases hc
      exact fun hzero => h (Nat.digitChar_eq_zero.1 hzero)
    · have hne : Nat.toDigits 10 (n / 10) ≠ [] := Nat.toDigits_ne_nil
      rw [natDigits, Nat.toDigits_of_base_le (by decide) (Nat.not_lt.1 hn), List.head?_append,
        Option.or_of_isSome (List.isSome_head?.2 hne)] at hc
      exact ih (n / 10) (by omega) (by omega) c hc

theorem le_ofDigitChars (n : Nat) (ds : List Char) : n ≤ Nat.ofDigitChars 10 ds n := by
  induction ds generalizing n with
  | nil => exact Nat.le_refl n
  | cons d ds ih =>
    rw [Nat.ofDigitChars_cons]
    have h := ih (10 * n + (d.toNat - '0'.toNat))
    omega

theorem addDigits_eq {ds : List Char} (h : Nat.ofDigitChars 10 ds n < Nat.pow 2 64) :
    addDigits n ds = (Nat.ofDigitChars 10 ds n, []) := by
  induction ds generalizing n with
  | nil => rfl
  | cons d ds ih =>
    rw [Nat.ofDigitChars_cons, Nat.mul_comm] at *
    have hle := le_ofDigitChars (n * 10 + (d.toNat - '0'.toNat)) ds
    rw [addDigits, if_neg (by omega)]
    exact ih h

theorem addDigits_lt (h : n < Nat.pow 2 64) (ds : List Char) : (addDigits n ds).1 < Nat.pow 2 64 := by
  induction ds generalizing n with
  | nil => exact h
  | cons d ds ih =>
    rw [addDigits]
    split
    · exact h
    · next hm => exact ih (Nat.not_le.1 hm)

/-! ### Integers -/

/-- An integer in the tree has at most 64 bits, be it with a sign or without one. -/
def Short (v : Json) : Prop := ∀ n, v = .int n → -(Nat.pow 2 63 : Nat) ≤ n ∧ n < (Nat.pow 2 64 : Nat)

theorem short_of_not_int (h : ∀ n, v ≠ .int n) : v.Short := fun n hn => (h n hn).elim

theorem readNumber_natDigits (negative : Bool) (h : n < Nat.pow 2 64) :
    readNumber negative (natDigits n) = wholeNumber negative n 0 [] := by
  have hall : ∀ c ∈ natDigits n, isAsciiDigit c = true := fun _ => isAsciiDigit_of_mem_natDigits
  have htake : (natDigits n).takeWhile isAsciiDigit = natDigits n := List.takeWhile_eq_self_iff.2 hall
  have hdrop : (natDigits n).dropWhile isAsciiDigit = [] := List.dropWhile_eq_nil_iff.2 hall
  have hadd : addDigits 0 (natDigits n) = (n, []) := by
    have hval : Nat.ofDigitChars 10 (natDigits n) 0 = n := Nat.ofDigitChars_ten_toDigits
    rw [addDigits_eq (hval.symm ▸ h), hval]
  by_cases hzero : n = 0
  · rw [hzero]
    rfl
  · have hhead := head_natDigits hzero
    cases hds : natDigits n with
    | nil => exact absurd hds Nat.toDigits_ne_nil
    | cons c ds =>
      rw [hds] at htake hdrop hadd hall hhead
      have hc : ¬(!isAsciiDigit c) = true := by simp [hall c]
      unfold readNumber
      dsimp only
      rw [if_neg hc, if_neg (hhead c rfl), htake, hdrop, hadd]
      rfl

/-- A text that is read as a number, with a sign or without one. -/
def ReadsAs (text : List Char) (v : Json) : Prop :=
  readNumber false text = .ok (v, []) ∨ ∃ ds, text = '-' :: ds ∧ readNumber true ds = .ok (v, [])

theorem readsAs_intText {n : Int} (h : (Json.int n).Short) : ReadsAs (intText n) (.int n) := by
  obtain ⟨hlow, hhigh⟩ := h n rfl
  cases n with
  | ofNat n =>
    have hn : n < Nat.pow 2 64 := Int.ofNat_lt.1 hhigh
    exact .inl (readNumber_natDigits false hn)
  | negSucc n =>
    have hn : n + 1 ≤ Nat.pow 2 63 := by
      rw [Int.negSucc_eq] at hlow
      omega
    have hpow : Nat.pow 2 63 < Nat.pow 2 64 := by decide
    refine .inr ⟨natDigits (n + 1), rfl, ?_⟩
    rw [readNumber_natDigits _ (by omega), wholeNumber, if_neg (by simp), if_neg (by simp),
      if_pos ⟨by omega, hn⟩]
    rfl

theorem exists_digit_of_readNumber {rest' : List Char} (h : readNumber negative s = .ok (v, rest')) :
    ∃ c t, s = c :: t ∧ isAsciiDigit c = true := by
  cases s with
  | nil => contradiction
  | cons c t =>
    unfold readNumber at h
    dsimp only at h
    split at h
    · contradiction
    · next hc => exact ⟨c, t, rfl, by simpa using hc⟩

theorem readValue_of_digit {c : Char} (hc : isAsciiDigit c = true) (fuel depth : Nat) (s : List Char) :
    readValue (fuel + 1) depth (c :: s) = readNumber false (c :: s) := by
  have hskip : skipSpace (c :: s) = c :: s := by
    have hspace : isSpace c = false := of_ascii
      (p := fun c => isAsciiDigit c = true → isSpace c = false) (by decide +kernel)
      (toNat_lt_of_isAsciiDigit hc) hc
    rw [skipSpace, List.dropWhile_cons, hspace]
    rfl
  rw [readValue, hskip]
  split
  case h_9 heq =>
    cases heq
    rw [if_pos hc]
  -- the other values start with no digit
  all_goals
    next heq =>
      cases heq
      try exact absurd hc Bool.false_ne_true

/-- Such a number is read in front of a delimiter. -/
theorem ReadsAs.readValue {text : List Char} (h : ReadsAs text v) (fuel depth : Nat)
    (hr : Delimited rest) : readValue (fuel + 1) depth (text ++ rest) = .ok (v, rest) := by
  have hnumber {negative : Bool} {ds : List Char} (h : readNumber negative ds = .ok (v, [])) :
      readNumber negative (ds ++ rest) = .ok (v, rest) := by
    obtain ⟨p, hp, -, hread⟩ := takes_readNumber h
    rw [hp, List.append_nil]
    exact hread rest hr
  obtain h | ⟨ds, rfl, h⟩ := h
  · obtain ⟨c, t, rfl, hc⟩ := exists_digit_of_readNumber h
    rw [List.cons_append, readValue_of_digit hc, ← List.cons_append]
    exact hnumber h
  · have hminus : Json.readValue (fuel + 1) depth ('-' :: ds ++ rest) = readNumber true (ds ++ rest) := by
      rw [Json.readValue]
      rfl
    rw [hminus]
    exact hnumber h

/-- A number that can be read: an integer of 64 bits, or a binary64 number. -/
inductive IsNumber : Json → Prop
  | int {n : Int} (h : (Json.int n).Short) : IsNumber (.int n)
  | float (x : Binary64) : IsNumber (.float x)

variable {rest' : List Char}

theorem isNumber_of_floatOf (h : floatOf negative n e rest = .ok (v, rest')) : v.IsNumber := by
  unfold floatOf at h
  split at h
  · cases h
    exact .float _
  · contradiction

theorem isNumber_of_readPower {down : Bool} (h : readPower negative n e down s = .ok (v, rest')) :
    v.IsNumber := by
  unfold readPower at h
  split at h
  · contradiction
  · split at h
    · contradiction
    · split at h
      · exact isNumber_of_floatOf h
      · split at h
        · contradiction
        · cases h
          exact .float _

theorem isNumber_of_readScale {plain : Reading (Json × List Char)}
    (h : readScale negative n e s plain = .ok (v, rest'))
    (hplain : plain = .ok (v, rest') → v.IsNumber) : v.IsNumber := by
  have hexponent {s : List Char} (h : readExponent negative n e s = .ok (v, rest')) : v.IsNumber := by
    unfold readExponent at h
    split at h <;> exact isNumber_of_readPower h
  unfold readScale at h
  split at h
  · exact hexponent h
  · exact hexponent h
  · exact hplain h

theorem isNumber_of_wholeNumber {e : Nat} (hn : n < Nat.pow 2 64)
    (h : wholeNumber negative n e rest = .ok (v, rest')) : v.IsNumber := by
  unfold wholeNumber at h
  split at h
  · exact isNumber_of_floatOf h
  · split at h
    · cases h
      refine .int fun k hk => ?_
      cases hk
      exact ⟨by omega, by omega⟩
    · split at h
      · cases h
        refine .int fun k hk => ?_
        cases hk
        exact ⟨by omega, by omega⟩
      · exact isNumber_of_floatOf h

theorem isNumber_of_readFraction {e : Nat} (hn : n < Nat.pow 2 64)
    (h : readFraction negative n e s = .ok (v, rest')) : v.IsNumber := by
  unfold readFraction at h
  split at h
  · dsimp only at h
    split at h
    · contradiction
    · exact isNumber_of_readScale h isNumber_of_floatOf
  · exact isNumber_of_readScale h (isNumber_of_wholeNumber hn)

theorem isNumber_of_readNumber (h : readNumber negative s = .ok (v, rest')) : v.IsNumber := by
  unfold readNumber at h
  split at h
  · contradiction
  · split at h
    · contradiction
    · split at h
      · split at h
        · contradiction
        · exact isNumber_of_readFraction (by decide) h
      · exact isNumber_of_readFraction (addDigits_lt (by decide) _) h

end MockRedirect.Json
