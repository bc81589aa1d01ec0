import MockRedirect.Proofs.InPlace
import MockRedirect.Proofs.PathGrammar
import Mathlib.Data.Nat.Digits.Defs
/-! Integers that are typed as they are shown. What is typed for a leaf is read as an integer with a sign or else as a
decimal number, so integers that have 64 bits only without a sign come back rounded. -/
namespace MockRedirect
open Text

variable {n : Nat} {k : Int}

/-! ### Reading what is written -/

theorem readInt?_intText (k : Int) : readInt? (intText k) = some k := by
  cases k with
  | ofNat n => exact readInt?_natDigits n
  | negSucc n =>
    have hvalue : natDigits (n + 1) ≠ [] ∧ (natDigits (n + 1)).all isAsciiDigit = true :=
      ⟨Nat.toDigits_ne_nil, List.all_eq_true.2 fun c hc => Json.isAsciiDigit_of_mem_natDigits hc⟩
    rw [intText, readInt?]
    simp only [if_pos hvalue, decimal_natDigits]
    rfl

theorem readInt64?_intText (k : Int) :
    readInt64? (intText k) = if -Nat.pow 2 63 ≤ k ∧ k < Nat.pow 2 63 then some k else none := by
  rw [readInt64?, readInt?_intText]
  simp [Option.filter]

theorem dropWhile_zero_natDigits (hn : n ≠ 0) : (natDigits n).dropWhile (· = '0') = natDigits n := by
  have hhead := Json.head_natDigits hn
  cases hds : natDigits n with
  | nil => rfl
  | cons c ds => rw [List.dropWhile_cons_of_neg (by simpa using hhead c (by simp [hds]))]

theorem readDecimal?_natDigits (hn : n ≠ 0) (h : n < Nat.pow 2 64) :
    readDecimal? (natDigits n) = Binary64.round false n 1 := by
  have hdigit : ∀ c ∈ natDigits n, isAsciiDigit c = true := fun _ => Json.isAsciiDigit_of_mem_natDigits
  obtain ⟨hwhole, hrest⟩ := Json.span_digits hdigit (r := []) nofun
  rw [List.append_nil] at hwhole hrest
  have hlength : (natDigits n).length ≤ 20 := Nat.toDigits_length 10 n 20 (by decide) (h.trans (by decide))
  have hne : natDigits n ≠ [] := Nat.toDigits_ne_nil
  rw [readDecimal?]
  · -- Twenty digits are far from both ends of what the exponents allow.
    have hlow : ¬(((natDigits n).length : Int) + (0 - (0 : Nat)) < -400) := by omega
    have hhigh : ¬400 < ((natDigits n).length : Int) + (0 - (0 : Nat)) := by omega
    simp only [hwhole, hrest, List.append_nil, dropWhile_zero_natDigits hn, List.length_nil, guard, if_pos hne]
    simp only [bind, pure, Option.bind, hne, false_or, if_neg hlow, if_neg hhigh, decimal_natDigits]
    simp
  · exact fun ds hds => notMem_natDigits (c := '-') (by decide) n (hds ▸ List.mem_cons_self)
  · exact fun ds hds => notMem_natDigits (c := '+') (by decide) n (hds ▸ List.mem_cons_self)

/-! ### Rounding -/

namespace Binary64

theorem divNearest_bounds (num : Nat) {den : Nat} (hden : 0 < den) :
    2 * (divNearest num den * den) ≤ 2 * num + den ∧ 2 * num ≤ 2 * (divNearest num den * den) + den := by
  have hdiv := Nat.div_add_mod num den
  have hmod := Nat.mod_lt num hden
  have hnext : (num / den + 1) * den = den * (num / den) + den := by rw [Nat.add_mul, Nat.one_mul, Nat.mul_comm]
  have hquot : num / den * den = den * (num / den) := Nat.mul_comm _ _
  unfold divNearest
  dsimp only
  split
  · omega
  · split
    · omega
    · split <;> omega

theorem leadingBit_eq (hlow : Nat.pow 2 63 ≤ n) (hhigh : n < Nat.pow 2 64) : leadingBit n 1 = 63 := by
  have hpos : 0 < Nat.pow 2 63 := by decide
  have hlog : n.log2 = 63 := (Nat.log2_eq_iff (by omega)).2 ⟨hlow, hhigh⟩
  have hone : Nat.log2 1 = 0 := by decide
  have hbit : 1 * Nat.pow 2 63 ≤ n * Nat.pow 2 0 := by
    have hunit : n * Nat.pow 2 0 = n := Nat.mul_one n
    rwa [hunit, Nat.one_mul]
  rw [leadingBit, hlog, hone]
  exact if_pos hbit

/-- A number whose leading bit is the last of 64 is rounded to a multiple of 2048. -/
theorem round_eq_some (hlow : Nat.pow 2 63 ≤ n) (hhigh : n < Nat.pow 2 64) :
    ∃ x, round false n 1 = some x ∧ x.magnitude = divNearest n 2048 * 2048 := by
  have hpos : 0 < Nat.pow 2 63 := by decide
  have hunit : n * Nat.pow 2 0 = n := Nat.mul_one n
  have hround : round false n 1 = some (if divNearest n 2048 = Nat.pow 2 53 then ⟨false, Nat.pow 2 52, 12⟩
      else ⟨false, divNearest n 2048, 11⟩) := by
    have hexponent : max ((63 : Int) - 52) (-1074) = 11 := rfl
    have hgrid : divNearest (n * Nat.pow 2 (-11 : Int).toNat) (1 * Nat.pow 2 (11 : Int).toNat) = divNearest n 2048 :=
      congrArg (divNearest · 2048) hunit
    rw [round, if_neg (by omega), leadingBit_eq hlow hhigh]
    dsimp only
    rw [hexponent, hgrid]
    split <;> rfl
  refine ⟨_, hround, ?_⟩
  split
  · next htop =>
    -- The mantissa has got one bit more, so it is halved and the exponent grows.
    rw [htop]
    rfl
  · exact Nat.div_one _

/-- It is rounded to the nearest one. -/
theorem exists_round_near (hlow : Nat.pow 2 63 ≤ n) (hhigh : n < Nat.pow 2 64) :
    ∃ x, round false n 1 = some x ∧ 2048 ∣ x.magnitude ∧ x.magnitude ≤ n + 1024 ∧ n ≤ x.magnitude + 1024 := by
  obtain ⟨x, hx, hmagnitude⟩ := round_eq_some hlow hhigh
  have hnear := divNearest_bounds n (show 0 < 2048 by decide)
  rw [← hmagnitude] at hnear
  exact ⟨x, hx, ⟨_, hmagnitude.trans (Nat.mul_comm ..)⟩, by omega, by omega⟩

end Binary64

/-! ### Typing what is shown -/

theorem not_blank_intText (k : Int) : ∀ c ∈ intText k, isBlank c = false := by
  have hdigits (n : Nat) : ∀ c ∈ natDigits n, isBlank c = false := by
    intro c hc
    have hdigit := Json.isAsciiDigit_of_mem_natDigits hc
    exact of_ascii (p := fun c => isAsciiDigit c = true → isBlank c = false) (by decide)
      (toNat_lt_of_isAsciiDigit hdigit) hdigit
  cases k with
  | ofNat n => exact hdigits n
  | negSucc n => exact List.forall_mem_cons.2 ⟨by decide, hdigits (n + 1)⟩

theorem intText_ne_nil (k : Int) : intText k ≠ [] := by
  cases k with
  | ofNat n => exact Nat.toDigits_ne_nil
  | negSucc n => exact List.cons_ne_nil _ _

theorem trim_intText {before after : List Char} (hbefore : ∀ c ∈ before, isBlank c = true)
    (hafter : ∀ c ∈ after, isBlank c = true) (k : Int) : trim (before ++ (intText k ++ after)) = intText k :=
  trim_append hbefore hafter (intText_ne_nil k) (fun c hc => not_blank_intText k c (List.mem_of_mem_head? hc))
    fun c hc => not_blank_intText k c (List.mem_of_mem_getLast? hc)

namespace Json

/-- What the text of an integer is taken for where an integer stood: that integer if it has 64 bits with a sign, and
else the number it is rounded to. -/
theorem coerce_of_trim {p : FieldPath} {raw : String} {j : Int} (h : trim raw.toList = intText k)
    (hshort : (Json.int k).Short) (hlast : ∀ name, p.getLast? = some (.key name) → name ∉ statusErrorFields) :
    (k < Nat.pow 2 63 → coerce p raw (.int j) = .int k) ∧
      ∀ x, Nat.pow 2 63 ≤ k → Binary64.round false k.toNat 1 = some x → coerce p raw (.int j) = .float x := by
  have hany : ¬(FieldPath.lastKey? p).any (statusErrorFields.contains ·) = true := by
    rw [FieldPath.lastKey?]
    split
    · next name hname => simpa using hlast name hname
    · simp
  obtain ⟨hlow, hhigh⟩ := hshort k rfl
  rw [coerce, if_neg hany, h]
  simp only [isBool, Bool.false_eq_true, if_false, readInt64?_intText]
  refine ⟨fun hk => ?_, fun x hk hx => ?_⟩
  · rw [if_pos ⟨hlow, hk⟩]
  · obtain ⟨n, rfl⟩ := Int.eq_ofNat_of_zero_le (Int.le_trans (by decide) hk)
    have hpos : 0 < Nat.pow 2 63 := by decide
    have hread : readDecimal? (intText n) = some x :=
      (readDecimal?_natDigits (by omega) (by omega)).trans hx
    rw [if_neg (by omega), hread]

end Json

namespace Draft
open Json

variable {d : Draft} {path : String} {p : FieldPath} {before after : List Char} {u : Json}

theorem setField_coerced (hp : FieldPath.parse path = .ok p) (hat : d.body.at? p = some u) {raw : String} {w : Json}
    (hw : d.body.setField p (coerce p raw u) = .ok w) : d.setField path raw = .ok { d with body := w } := by
  rw [Draft.setField, hp]
  simp only [hat, hw, bind, Except.bind]

/-- An integer leaf for which its own text is typed, with any blanks around it, stays if it has 64 bits with a sign. The
larger ones are rounded: the number nearest to the integer takes its place, and it is no integer any more. -/
theorem setField_shown (hp : FieldPath.parse path = .ok p) (hat : d.body.at? p = some (.int k))
    (hshort : (Json.int k).Short) (hlast : ∀ name, p.getLast? = some (.key name) → name ∉ statusErrorFields)
    (hbefore : ∀ c ∈ before, isBlank c = true) (hafter : ∀ c ∈ after, isBlank c = true) :
    (k < Nat.pow 2 63 →
      d.setField path (String.ofList (before ++ ((Json.int k).compact ++ after))) = .ok d) ∧
      (Nat.pow 2 63 ≤ k → ∃ x w, Binary64.round false k.toNat 1 = some x ∧ 2048 ∣ x.magnitude ∧
        (x.magnitude : Int) ≤ k + 1024 ∧ k ≤ x.magnitude + 1024 ∧
        d.body.setField p (.float x) = .ok w ∧ w ≠ d.body ∧
        d.setField path (String.ofList (before ++ ((Json.int k).compact ++ after))) = .ok { d with body := w }) := by
  have hne : p ≠ [] := FieldPath.parse_ne_nil hp
  have htrim : trim (String.ofList (before ++ ((Json.int k).compact ++ after))).toList = intText k := by
    rw [String.toList_ofList, compact, trim_intText hbefore hafter]
  obtain ⟨hsmall, hlarge⟩ := coerce_of_trim (j := k) htrim hshort hlast
  refine ⟨fun hk => setField_coerced hp hat ?_, fun hk => ?_⟩
  · rw [hsmall hk]
    exact setField_self hne hat
  · obtain ⟨-, hhigh⟩ := hshort k rfl
    obtain ⟨x, hx, hgrid, hbelow, habove⟩ := Binary64.exists_round_near (n := k.toNat) (by omega) (by omega)
    obtain ⟨w, hw⟩ := exists_modifyAt? hat (f := fun _ => some (.float x)) rfl
    have hset : d.body.setField p (.float x) = .ok w := (setField_of_at? hne hat).2 hw
    refine ⟨x, w, hx, hgrid, by omega, by omega, hset, ?_, setField_coerced hp hat ?_⟩
    · -- Some of these integers are rounded to themselves, but even then the leaf is another one.
      rintro rfl
      cases (at?_setField hset).symm.trans hat
    · rw [hlarge x hk hx]
      exact hset

/-- A draft with the lowest and the highest integer with a sign, and the highest without one. -/
def limits : Draft where
  id := none
  typedUrl := "/a"
  urlTemplate := "/a?MT=GET"
  verb := .get
  body := .obj [("Low", .int (-9223372036854775808)),
    ("High", .arr [.int 9223372036854775807, .int 18446744073709551615])]
  sample := .obj []

/-- The first two are kept and the last one is not. -/
theorem setField_shown_limits :
    limits.setField "Low" "\u00a0-9223372036854775808\n" = .ok limits ∧
      limits.setField "High[0]" "9223372036854775807" = .ok limits ∧
      ∃ x w, limits.body.setField [.key "High", .index 1] (.float x) = .ok w ∧ w ≠ limits.body ∧
        limits.setField "High[1]" "18446744073709551615" = .ok { limits with body := w } := by
  have hbefore : ∀ c ∈ ['\u00a0'], isBlank c = true := forall_mem_of_all (by decide)
  have hafter : ∀ c ∈ ['\n'], isBlank c = true := forall_mem_of_all (by decide)
  have hlow : FieldPath.parse "Low" = .ok [.key "Low"] := rfl
  have hfirst : FieldPath.parse "High[0]" = .ok [.key "High", .index 0] := rfl
  have hsecond : FieldPath.parse "High[1]" = .ok [.key "High", .index 1] := rfl
  have hname : ∀ name, [Segment.key "Low"].getLast? = some (.key name) → name ∉ statusErrorFields := by
    rintro _ ⟨⟩
    decide
  have hnone : ∀ c ∈ ([] : List Char), isBlank c = true := nofun
  have hkept := setField_shown (d := limits) (k := -9223372036854775808) hlow rfl (by rintro _ ⟨⟩; decide) hname
    hbefore hafter
  have hkept' := setField_shown (d := limits) (k := 9223372036854775807) hfirst rfl (by rintro _ ⟨⟩; decide) nofun
    hnone hnone
  have hrounded := setField_shown (d := limits) (k := 18446744073709551615) hsecond rfl (by rintro _ ⟨⟩; decide) nofun
    hnone hnone
  obtain ⟨x, w, -, -, -, -, hw, hne, hset⟩ := hrounded.2 (by decide)
  exact ⟨hkept.1 (by decide), hkept'.1 (by decide), x, w, hw, hne, hset⟩

/-- The highest integer without a sign becomes 2 ^ 64. -/
theorem not_setField_shown_highest : FieldPath.parse "High[1]" = .ok [.key "High", .index 1] ∧
    limits.body.at? [.key "High", .index 1] = some (.int 18446744073709551615) ∧
    (Json.int 18446744073709551615).Short ∧
    (Json.int 18446744073709551615).compact = "18446744073709551615".toList ∧
    limits.setField "High[1]" "18446744073709551615" =
      .ok { limits with body := .obj [("Low", .int (-9223372036854775808)),
        ("High", .arr [.int 9223372036854775807, .float ⟨false, Nat.pow 2 52, 12⟩])] } := by
  have hshort : (Json.int 18446744073709551615).Short := by
    rintro _ ⟨⟩
    decide
  have hfloat : coerce [.key "High", .index 1] "18446744073709551615" (.int 18446744073709551615) =
      .float ⟨false, Nat.pow 2 52, 12⟩ :=
    (coerce_of_trim (p := [.key "High", .index 1]) (by decide +kernel) hshort nofun).2 _ (by decide) (by decide +kernel)
  have hparse : FieldPath.parse "High[1]" = .ok [.key "High", .index 1] := rfl
  refine ⟨hparse, rfl, hshort, by decide +kernel, setField_coerced hparse (u := .int 18446744073709551615) rfl ?_⟩
  rw [hfloat]
  rfl

end Draft

end MockRedirect
