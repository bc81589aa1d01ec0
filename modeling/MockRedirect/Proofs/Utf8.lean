import MockRedirect.Text.Utf8
/-! UTF-8: the bytes of a text are a correct text, and they are read back as it. -/
namespace MockRedirect.Text

/-! ### One character -/

/-- The bytes of a character by its number: one below 0x80, or a first byte that announces the others. -/
inductive Coded (n : Nat) : List Nat → Prop
  | one (h : n < 0x80) : Coded n [n]
  | two {b t : Nat} (hb : 0x80 ≤ b) (hlead : lead? b = some (0x80, 0xBF, 0)) (ht : 0x80 ≤ t ∧ t ≤ 0xBF)
    (hvalue : addTail (leadValue b) t = n) : Coded n [b, t]
  | three {b t u lo hi : Nat} (hb : 0x80 ≤ b) (hlead : lead? b = some (lo, hi, 1)) (ht : lo ≤ t ∧ t ≤ hi)
    (hu : isTail u = true) (hvalue : addTail (addTail (leadValue b) t) u = n) : Coded n [b, t, u]
  | four {b t u v lo hi : Nat} (hb : 0x80 ≤ b) (hlead : lead? b = some (lo, hi, 2)) (ht : lo ≤ t ∧ t ≤ hi)
    (hu : isTail u = true) (hv : isTail v = true)
    (hvalue : addTail (addTail (addTail (leadValue b) t) u) v = n) : Coded n [b, t, u, v]

theorem isTail_mod (n : Nat) : isTail (0x80 + n % 64) = true := by
  simp only [isTail, Bool.and_eq_true, decide_eq_true_eq]
  omega

/-- The second of three bytes stands within the bounds that the first one sets: there are no shorter forms and
no surrogates. -/
theorem exists_lead_three {n : Nat} (hlow : 0x800 ≤ n) (hhigh : n < 0x10000) (h : n < 0xd800 ∨ 0xdfff < n) :
    ∃ lo hi, lead? (0xE0 + n / 4096) = some (lo, hi, 1) ∧ lo ≤ 0x80 + n / 64 % 64 ∧ 0x80 + n / 64 % 64 ≤ hi := by
  unfold lead?
  rw [if_neg (by omega)]
  split
  · exact ⟨_, _, rfl, by omega, by omega⟩
  · split
    · exact ⟨_, _, rfl, by omega, by omega⟩
    · rw [if_pos (by omega)]
      exact ⟨_, _, rfl, by omega, by omega⟩

theorem exists_lead_four {n : Nat} (hlow : 0x10000 ≤ n) (hhigh : n < 0x110000) :
    ∃ lo hi, lead? (0xF0 + n / 262144) = some (lo, hi, 2) ∧ lo ≤ 0x80 + n / 4096 % 64 ∧
      0x80 + n / 4096 % 64 ≤ hi := by
  unfold lead?
  rw [if_neg (by omega), if_neg (by omega), if_neg (by omega), if_neg (by omega)]
  split
  · exact ⟨_, _, rfl, by omega, by omega⟩
  · split
    · exact ⟨_, _, rfl, by omega, by omega⟩
    · rw [if_pos (by omega)]
      exact ⟨_, _, rfl, by omega, by omega⟩

theorem coded_utf8Char (c : Char) : Coded c.toNat (utf8Char c) := by
  have hvalid : c.toNat < 0xd800 ∨ 0xdfff < c.toNat ∧ c.toNat < 0x110000 := c.valid
  unfold utf8Char
  dsimp only
  split
  · next h => exact .one h
  · split
    · refine .two (by omega) (if_pos (by omega)) (by omega) ?_
      unfold addTail leadValue
      rw [if_pos (by omega)]
      omega
    · split
      · obtain ⟨lo, hi, hlead, ht⟩ := exists_lead_three (n := c.toNat) (by omega) (by omega) (by omega)
        refine .three (by omega) hlead ht (isTail_mod _) ?_
        unfold addTail leadValue
        rw [if_neg (by omega), if_pos (by omega)]
        omega
      · obtain ⟨lo, hi, hlead, ht⟩ := exists_lead_four (n := c.toNat) (by omega) (by omega)
        refine .four (by omega) hlead ht (isTail_mod _) (isTail_mod _) ?_
        unfold addTail leadValue
        rw [if_neg (by omega), if_neg (by omega)]
        omega

/-- The character at the front of a byte text is found, whatever follows it. -/
theorem Coded.front {c : Char} {bytes : List Nat} (h : Coded c.toNat bytes) :
    ∃ b bs, bytes = b :: bs ∧ ∀ rest, Text.front b (bs ++ rest) = .char c (bs.length + 1) := by
  generalize hn : c.toNat = n at h
  have hc : Char.ofNat n = c := by rw [← hn, Char.ofNat_toNat]
  cases h with
  | one h => exact ⟨_, _, rfl, fun rest => by rw [Text.front, if_pos h, hc]; rfl⟩
  | two hb hlead ht hvalue =>
    refine ⟨_, _, rfl, fun rest => ?_⟩
    simp only [Text.front, if_neg (Nat.not_lt.2 hb), hlead, List.cons_append, List.nil_append, hvalue, hc]
    rw [if_neg (by omega)]
    rfl
  | three hb hlead ht hu hvalue =>
    refine ⟨_, _, rfl, fun rest => ?_⟩
    simp only [Text.front, if_neg (Nat.not_lt.2 hb), hlead, List.cons_append, List.nil_append, hvalue, hc, hu]
    rw [if_neg (by omega)]
    rfl
  | four hb hlead ht hu hv hvalue =>
    refine ⟨_, _, rfl, fun rest => ?_⟩
    simp only [Text.front, if_neg (Nat.not_lt.2 hb), hlead, List.cons_append, List.nil_append, hvalue, hc, hu, hv]
    rw [if_neg (by omega)]
    rfl

/-! ### Texts -/

/-- Bytes of a character that has been read are passed over. -/
theorem decode_go_append (bs rest : List Nat) (i : Nat) :
    decode.go (bs ++ rest) bs.length i = decode.go rest 0 (i + bs.length) := by
  induction bs generalizing i with
  | nil => rfl
  | cons b bs ih =>
    rw [List.cons_append, List.length_cons, decode.go, ih]
    congr 1
    omega

theorem decode_go_utf8 (s : List Char) (i : Nat) : decode.go (utf8 s) 0 i = .ok s := by
  induction s generalizing i with
  | nil => rfl
  | cons c s ih =>
    obtain ⟨b, bs, hbytes, hfront⟩ := (coded_utf8Char c).front
    have htext : utf8 (c :: s) = b :: (bs ++ utf8 s) := by
      rw [utf8, List.flatMap_cons, hbytes]
      rfl
    rw [htext, decode.go, hfront]
    simp only [Nat.add_sub_cancel, decode_go_append, ih]
    rfl

/-- The bytes of a text are read back as the text. -/
theorem decode_utf8 (s : List Char) : decode (utf8 s) = .ok s := decode_go_utf8 s 0

end MockRedirect.Text
