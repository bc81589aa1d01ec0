import MockRedirect.Proofs.Number
/-! Tokens of JSON text. A string is read up to its closing quote and a word up to a delimiter, and both
mean the same wherever they stand. -/
namespace MockRedirect.Json
open Text Document

/-! ### Strings -/

theorem isBody_append {b b' : List Char} (h : IsBody b) (h' : IsBody b') : IsBody (b ++ b') := by
  induction h with
  | nil => exact h'
  | escape c _ ih => exact .escape c ih
  | char hquote hslash _ ih => exact .char hquote hslash ih

/-- A character that may stand in a string as it is. -/
theorem isBody_of_forall {b : List Char} (h : ∀ c ∈ b, c ≠ '"' ∧ c ≠ '\\') : IsBody b := by
  induction b with
  | nil => exact .nil
  | cons c b ih =>
    rw [List.forall_mem_cons] at h
    exact .char h.1.1 h.1.2 (ih h.2)

variable {s r : List Char}

/-- Hexadecimal digits neither end a string nor open an escape or a fence. -/
theorem ne_of_hexDigit {c : Char} (h : (hexDigit? c).isSome = true) : c ≠ '"' ∧ c ≠ '\\' ∧ c ≠ '\x60' := by
  refine ⟨?_, ?_, ?_⟩ <;> rintro rfl <;> contradiction

theorem isBody_of_hexDigits {p : List Char} (h : ∀ c ∈ p, (hexDigit? c).isSome = true) : IsBody p :=
  isBody_of_forall fun c hc => ⟨(ne_of_hexDigit (h c hc)).1, (ne_of_hexDigit (h c hc)).2.1⟩

theorem readHex4_eq_ok {n : Nat} (h : readHex4 s = .ok (n, r)) : ∃ p, s = p ++ r ∧
    (∀ c ∈ p, (hexDigit? c).isSome = true) ∧ ∀ r', readHex4 (p ++ r') = .ok (n, r') := by
  unfold readHex4 at h
  split at h
  · next a b c d _ =>
    split at h
    · next ha hb hc hd =>
      cases h
      refine ⟨[a, b, c, d], rfl, ?_, fun r' => ?_⟩
      · simp [ha, hb, hc, hd]
      · simp only [List.cons_append, List.nil_append, readHex4, ha, hb, hc, hd]
    · contradiction
  · contradiction

theorem readTail_eq_ok {lead : Nat} {c : Char} (h : readTail lead s = .ok (c, r)) : ∃ p,
    s = '\\' :: 'u' :: (p ++ r) ∧ (∀ c ∈ p, (hexDigit? c).isSome = true) ∧
      ∀ r', readTail lead ('\\' :: 'u' :: (p ++ r')) = .ok (c, r') := by
  unfold readTail at h
  split at h
  · obtain ⟨⟨tail, rest⟩, hhex, h⟩ := bind_eq_ok.1 h
    dsimp only at h
    split at h
    · next htail =>
      obtain ⟨rfl, rfl⟩ := Prod.mk.inj (Except.ok.inj h)
      obtain ⟨p, rfl, hp, hread⟩ := readHex4_eq_ok hhex
      refine ⟨p, rfl, hp, fun r' => ?_⟩
      rw [readTail, hread]
      simp only [bind, Except.bind, if_pos htail]
    · contradiction
  · contradiction
  · contradiction
  · contradiction
  · contradiction

/-- What follows a backslash is taken along as a part of the string. -/
theorem readEscape_eq_ok {c : Char} (h : readEscape s = .ok (c, r)) : ∃ p, s = p ++ r ∧
    IsBody ('\\' :: p) ∧ '\x60' ∉ p ∧ ∀ r', readEscape (p ++ r') = .ok (c, r') := by
  unfold readEscape at h
  split at h
  · contradiction
  · obtain ⟨⟨n, rest⟩, hn, h⟩ := bind_eq_ok.1 h
    dsimp only at h
    obtain ⟨p, hs, hp, hread⟩ := readHex4_eq_ok hn
    have hbody : IsBody ('\\' :: 'u' :: p) := .escape 'u' (isBody_of_hexDigits hp)
    have hfence : '\x60' ∉ p := fun hc => (ne_of_hexDigit (hp _ hc)).2.2 rfl
    have hread' (r' : List Char) : readEscape ('u' :: p ++ r') =
        if isTailSurrogate n then .error (hereAt .loneSurrogate r')
        else if isLeadSurrogate n then readTail n r' else .ok (Char.ofNat n, r') := by
      rw [List.cons_append, readEscape, hread]
      rfl
    split at h
    · contradiction
    · next htail =>
      split at h
      · next hlead =>
        obtain ⟨q, rfl, hq, htake⟩ := readTail_eq_ok h
        refine ⟨'u' :: (p ++ '\\' :: 'u' :: q), by simp [hs], ?_, ?_, fun r' => ?_⟩
        · exact isBody_append hbody (.escape 'u' (isBody_of_hexDigits hq))
        · have hfence' : '\x60' ∉ q := fun hc => (ne_of_hexDigit (hq _ hc)).2.2 rfl
          simp [hfence, hfence']
        · have hassoc : 'u' :: (p ++ '\\' :: 'u' :: q) ++ r' = 'u' :: p ++ '\\' :: 'u' :: (q ++ r') := by
            simp
          rw [hassoc, hread', if_neg htail, if_pos hlead, htake]
      · next hlead =>
        cases h
        refine ⟨'u' :: p, by rw [hs, List.cons_append], hbody, by simpa using hfence, fun r' => ?_⟩
        rw [hread', if_neg htail, if_neg hlead]
  · next d rest hd =>
    split at h
    · next hshort =>
      cases h
      have hfence : '\x60' ≠ d := by
        rintro rfl
        contradiction
      refine ⟨[d], rfl, .escape d .nil, by simpa using hfence, fun r' => ?_⟩
      unfold readEscape
      split
      · contradiction
      · next heq =>
        cases heq
        exact absurd rfl hd
      · next heq =>
        cases heq
        rw [hshort]
        rfl
    · contradiction

theorem readStringBody_eq_ok {bound cs : List Char} (h : readStringBody bound s = .ok (cs, r)) : ∃ b,
    s = b ++ '"' :: r ∧ IsBody b ∧ ∀ bound' r', b.length < bound'.length →
      readStringBody bound' (b ++ '"' :: r') = .ok (cs, r') := by
  induction bound generalizing s cs with
  | nil => cases s <;> contradiction
  | cons a bound ih =>
    cases s with
    | nil => contradiction
    | cons c s =>
      rw [readStringBody] at h
      split at h
      · next hquote =>
        cases h
        refine ⟨[], by rw [hquote]; rfl, .nil, fun bound' r' hlt => ?_⟩
        cases bound' with
        | nil => contradiction
        | cons => rfl
      · next hquote =>
        split at h
        · next hslash =>
          obtain ⟨⟨d, s'⟩, hd, h⟩ := bind_eq_ok.1 h
          obtain ⟨⟨ds, s''⟩, hds, h⟩ := bind_eq_ok.1 h
          cases h
          obtain ⟨p, rfl, hp, -, hescape⟩ := readEscape_eq_ok hd
          obtain ⟨b, rfl, hb, hread⟩ := ih hds
          refine ⟨'\\' :: (p ++ b), by simp [hslash], isBody_append hp hb, fun bound' r' hlt => ?_⟩
          cases bound' with
          | nil => contradiction
          | cons a' bound' =>
            have hlength : b.length < bound'.length := by
              simp only [List.length_cons, List.length_append] at hlt
              omega
            rw [List.cons_append, List.append_assoc, readStringBody, if_neg (by decide), if_pos rfl,
              hescape, bind_eq_ok]
            exact ⟨_, rfl, bind_eq_ok.2 ⟨_, hread _ _ hlength, rfl⟩⟩
        · next hslash =>
          split at h
          · contradiction
          · next hcontrol =>
            obtain ⟨⟨ds, s'⟩, hds, h⟩ := bind_eq_ok.1 h
            cases h
            obtain ⟨b, rfl, hb, hread⟩ := ih hds
            refine ⟨c :: b, rfl, .char hquote hslash hb, fun bound' r' hlt => ?_⟩
            cases bound' with
            | nil => contradiction
            | cons a' bound' =>
              rw [List.cons_append, readStringBody, if_neg hquote, if_neg hslash, if_neg hcontrol]
              exact bind_eq_ok.2 ⟨_, hread _ _ (Nat.lt_of_succ_lt_succ hlt), rfl⟩

/-- A string is read up to its closing quote, whatever follows. -/
theorem readString_eq_ok {t : String} (h : readString s = .ok (t, r)) : ∃ b,
    s = b ++ '"' :: r ∧ IsBody b ∧ ∀ r', readString (b ++ '"' :: r') = .ok (t, r') := by
  obtain ⟨⟨cs, rest⟩, hcs, h⟩ := bind_eq_ok.1 h
  cases h
  obtain ⟨b, rfl, hb, hread⟩ := readStringBody_eq_ok hcs
  refine ⟨b, rfl, hb, fun r' => bind_eq_ok.2 ⟨_, hread _ _ ?_, rfl⟩⟩
  simp

theorem stringValue?_eq_some {b : List Char} {t : String} :
    stringValue? b = some t ↔ readString (b ++ ['"']) = .ok (t, []) := by
  unfold stringValue?
  split
  · next h => simp [h]
  · next h =>
    refine ⟨fun hnone => by contradiction, fun hread => (h t hread).elim⟩

theorem readString_of_value {b : List Char} {t : String} (h : stringValue? b = some t) (r : List Char) :
    readString (b ++ '"' :: r) = .ok (t, r) := by
  obtain ⟨b', heq, -, hread⟩ := readString_eq_ok (stringValue?_eq_some.1 h)
  obtain rfl : b = b' := (List.append_inj' heq rfl).1
  exact hread r

theorem exists_body_of_readString {t : String} (h : readString s = .ok (t, r)) : ∃ b,
    s = b ++ '"' :: r ∧ IsBody b ∧ stringValue? b = some t := by
  obtain ⟨b, rfl, hb, hread⟩ := readString_eq_ok h
  exact ⟨b, rfl, hb, stringValue?_eq_some.2 (hread [])⟩

/-! ### Words -/

theorem toNat_lt_of_isWordChar {c : Char} (h : isWordChar c = true) : c.toNat < 128 := by
  simp only [isWordChar, Bool.or_eq_true, beq_iff_eq] at h
  obtain (((h | h) | rfl) | rfl) | rfl := h
  · exact toNat_lt_of_isAsciiLetter h
  · exact toNat_lt_of_isAsciiDigit h
  all_goals decide

theorem isAsciiBlank_of_isSpace {c : Char} (h : isSpace c = true) : isAsciiBlank c = true := by
  simp only [isSpace, Bool.or_eq_true, beq_iff_eq] at h
  obtain ((rfl | rfl) | rfl) | rfl := h <;> rfl

theorem isAsciiBlank_of_not_isBlank {c : Char} (h : isBlank c = false) : isAsciiBlank c = false :=
  Bool.eq_false_iff.2 fun hblank => by
    rw [isBlank_of_isAsciiBlank hblank] at h
    contradiction

theorem isSpace_of_not_isBlank {c : Char} (h : isBlank c = false) : isSpace c = false :=
  Bool.eq_false_iff.2 fun hspace => by
    rw [isBlank_of_isAsciiBlank (isAsciiBlank_of_isSpace hspace)] at h
    contradiction

theorem isBlank_of_isWordChar {c : Char} (h : isWordChar c = true) : isBlank c = false :=
  of_ascii (p := fun c => isWordChar c = true → isBlank c = false) (by decide +kernel)
    (toNat_lt_of_isWordChar h) h

theorem isSpace_of_isWordChar {c : Char} (h : isWordChar c = true) : isSpace c = false :=
  isSpace_of_not_isBlank (isBlank_of_isWordChar h)

theorem skipSpace_cons {c : Char} (h : isSpace c = false) (s : List Char) :
    skipSpace (c :: s) = c :: s := by
  rw [skipSpace, List.dropWhile_cons, h]
  rfl

theorem readWord_eq_ok {ws : List Char} : readWord ws s = .ok r ↔ s = ws ++ r := by
  induction ws generalizing s with
  | nil => exact ⟨Except.ok.inj, congrArg Except.ok⟩
  | cons w ws ih =>
    cases s with
    | nil => simp [readWord]
    | cons c s =>
      rw [readWord]
      split
      · next hc => rw [ih, hc, List.cons_append, List.cons_inj_right]
      · next hc => simp [Ne.symm hc]

variable {v : Json}

theorem takes_readWord {ws : List Char} {v' : Json} (hws : ∀ c ∈ ws, isWordChar c = true)
    (h : (readWord ws s >>= fun r => .ok (v', r)) = .ok (v, r)) :
    Takes (fun s => readWord ws s >>= fun r => .ok (v', r)) s r v := by
  obtain ⟨_, hs, h⟩ := bind_eq_ok.1 h
  cases h
  exact ⟨ws, readWord_eq_ok.1 hs, hws, fun r' _ => bind_eq_ok.2 ⟨r', readWord_eq_ok.2 rfl, rfl⟩⟩

/-- A number or a name is read without a look at how much fuel and depth is left. -/
theorem readValue_of_isWordChar {c : Char} (hc : isWordChar c = true) (fuel depth : Nat) (s : List Char) :
    readValue (fuel + 1) depth (c :: s) = readValue 1 0 (c :: s) := by
  rw [readValue, readValue, skipSpace_cons (isSpace_of_isWordChar hc)]
  split
  case h_3 heq | h_4 heq =>
    cases heq
    contradiction
  all_goals rfl

/-- The text of a number or a name is the same wherever it stands. -/
theorem takes_readValue {c : Char} (hc : isWordChar c = true)
    (h : readValue 1 0 (c :: s) = .ok (v, r)) : Takes (readValue 1 0) (c :: s) r v := by
  have h' := h
  rw [readValue, skipSpace_cons (isSpace_of_isWordChar hc)] at h'
  split at h'
  · contradiction
  · next heq =>
    cases heq
    contradiction
  · next heq =>
    cases heq
    contradiction
  · next heq =>
    cases heq
    contradiction
  · next heq =>
    cases heq
    exact (takes_readNumber h').cons hc fun _ => rfl
  · next heq =>
    cases heq
    exact (takes_readWord (forall_mem_of_all (by decide)) h').cons hc fun _ => rfl
  · next heq =>
    cases heq
    exact (takes_readWord (forall_mem_of_all (by decide)) h').cons hc fun _ => rfl
  · next heq =>
    cases heq
    exact (takes_readWord (forall_mem_of_all (by decide)) h').cons hc fun _ => rfl
  · next heq =>
    cases heq
    split at h'
    · next hdigit =>
      obtain ⟨p, hs, hp, hread⟩ := takes_readNumber h'
      cases p with
      | nil =>
        have hnil := hread [] delimited_nil
        cases hnil
      | cons c' p =>
        obtain ⟨rfl, rfl⟩ := List.cons.inj hs
        refine ⟨c :: p, rfl, hp, fun r' hr' => ?_⟩
        rw [List.cons_append, readValue_of_digit hdigit]
        exact hread r' hr'
    · contradiction

theorem wordValue?_eq_some {w : List Char} : wordValue? w = some v ↔ readValue 1 0 w = .ok (v, []) := by
  unfold wordValue?
  split
  · next h => simp [h]
  · next h => exact ⟨fun hnone => by contradiction, fun hread => (h v hread).elim⟩

theorem readValue_word {w : List Char} (hw : IsWord w) (h : wordValue? w = some v) (fuel depth : Nat)
    (hr : Delimited r) : readValue (fuel + 1) depth (w ++ r) = .ok (v, r) := by
  obtain ⟨hne, hchars⟩ := hw
  cases w with
  | nil => contradiction
  | cons c w =>
    have hc := hchars c List.mem_cons_self
    obtain ⟨p, hp, -, hread⟩ := takes_readValue hc (wordValue?_eq_some.1 h)
    rw [List.append_nil] at hp
    rw [List.cons_append, readValue_of_isWordChar hc, ← List.cons_append, hp]
    exact hread r hr

/-- What is read from such a character on is a word. -/
theorem exists_word {c : Char} {fuel depth : Nat} (hc : isWordChar c = true)
    (h : readValue (fuel + 1) depth (c :: s) = .ok (v, r)) :
    ∃ w, c :: s = w ++ r ∧ IsWord w ∧ wordValue? w = some v := by
  rw [readValue_of_isWordChar hc] at h
  obtain ⟨p, hs, hp, hread⟩ := takes_readValue hc h
  have hword := hread [] delimited_nil
  rw [List.append_nil] at hword
  refine ⟨p, hs, ⟨?_, hp⟩, wordValue?_eq_some.2 hword⟩
  rintro rfl
  cases hword

end MockRedirect.Json
