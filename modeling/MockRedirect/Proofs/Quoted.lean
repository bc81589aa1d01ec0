import MockRedirect.Json.Reader
import MockRedirect.Proofs.Address
/-! Strings in JSON text: what is quoted is read back, whatever its characters are. -/
namespace MockRedirect.Json
open Text

theorem hexPair_control : ∀ n < 32, ∃ a b x y, hexPair n = [a, b] ∧ hexDigit? a = some x ∧
    hexDigit? b = some y ∧ x * 16 + y = n := by
  intro n hn
  have h : ∀ n < 32, (hexDigit? ((hexPair n)[0]?.getD ' ')).bind (fun x =>
      (hexDigit? ((hexPair n)[1]?.getD ' ')).map fun y => x * 16 + y) = some n := by decide
  obtain ⟨x, hx, h⟩ := Option.bind_eq_some_iff.1 (h n hn)
  obtain ⟨y, hy, h⟩ := Option.map_eq_some_iff.1 h
  exact ⟨_, _, x, y, rfl, hx, hy, h⟩

/-- A character stands for itself, or it is written with a letter for it, or with its number. -/
theorem escape_cases (c : Char) :
    (escape c = [c] ∧ c ≠ '"' ∧ c ≠ '\\' ∧ ¬c.toNat < 32) ∨
      (∃ d, escape c = ['\\', d] ∧ shortEscape? d = some c) ∨
      ∃ a b x y, escape c = ['\\', 'u', '0', '0', a, b] ∧ hexDigit? a = some x ∧
        hexDigit? b = some y ∧ x * 16 + y = c.toNat ∧ c.toNat < 32 := by
  unfold escape
  split
  · next h => exact .inr (.inl ⟨'"', rfl, by rw [h]; rfl⟩)
  split
  · next h => exact .inr (.inl ⟨'\\', rfl, by rw [h]; rfl⟩)
  split
  · next h => exact .inr (.inl ⟨'b', rfl, h ▸ rfl⟩)
  split
  · next h => exact .inr (.inl ⟨'f', rfl, h ▸ rfl⟩)
  split
  · next h => exact .inr (.inl ⟨'n', rfl, h ▸ rfl⟩)
  split
  · next h => exact .inr (.inl ⟨'r', rfl, h ▸ rfl⟩)
  split
  · next h => exact .inr (.inl ⟨'t', rfl, h ▸ rfl⟩)
  split
  · next h =>
    obtain ⟨a, b, x, y, hpair, hx, hy, hn⟩ := hexPair_control c.toNat h
    exact .inr (.inr ⟨a, b, x, y, by rw [hpair], hx, hy, hn, h⟩)
  · next hquote hslash _ _ _ _ _ hcontrol => exact .inl ⟨rfl, hquote, hslash, hcontrol⟩

theorem readEscape_short {c d : Char} (h : shortEscape? d = some c) (rest : List Char) :
    readEscape (d :: rest) = .ok (c, rest) := by
  have hu : d ≠ 'u' := by
    rintro rfl
    contradiction
  unfold readEscape
  split
  · contradiction
  · next heq =>
    cases heq
    contradiction
  · next heq =>
    cases heq
    rw [h]

theorem readEscape_control {a b c : Char} {x y : Nat} (ha : hexDigit? a = some x)
    (hb : hexDigit? b = some y) (hc : x * 16 + y = c.toNat) (hlt : c.toNat < 32) (rest : List Char) :
    readEscape ('u' :: '0' :: '0' :: a :: b :: rest) = .ok (c, rest) := by
  have hzero : hexDigit? '0' = some 0 := rfl
  have hread : readHex4 ('0' :: '0' :: a :: b :: rest) = .ok (c.toNat, rest) := by
    simp only [readHex4, hzero, ha, hb]
    rw [← hc]
    simp
  have htail : isTailSurrogate c.toNat = false := by
    simp only [isTailSurrogate, Bool.and_eq_false_iff, decide_eq_false_iff_not]
    omega
  have hlead : isLeadSurrogate c.toNat = false := by
    simp only [isLeadSurrogate, Bool.and_eq_false_iff, decide_eq_false_iff_not]
    omega
  rw [readEscape, hread]
  simp [bind, Except.bind, htail, hlead]

/-- One character of a string, however it is written. -/
theorem readStringBody_escape (b : Char) (bound : List Char) (c : Char) (rest : List Char) :
    readStringBody (b :: bound) (escape c ++ rest) =
      (do let (ds, rest) ← readStringBody bound rest; .ok (c :: ds, rest)) := by
  obtain ⟨h, hquote, hslash, hcontrol⟩ | ⟨d, h, hd⟩ | ⟨a, b', x, y, h, ha, hb, hc, hlt⟩ := escape_cases c
  · rw [h, List.singleton_append, readStringBody, if_neg hquote, if_neg hslash, if_neg hcontrol]
  · rw [h]
    simp only [List.cons_append, List.nil_append, readStringBody, readEscape_short hd, bind, Except.bind]
    rfl
  · rw [h]
    simp only [List.cons_append, List.nil_append, readStringBody, readEscape_control ha hb hc hlt, bind,
      Except.bind]
    rfl

theorem readStringBody_flatMap_escape {bound : List Char} (cs rest : List Char)
    (h : cs.length < bound.length) :
    readStringBody bound (cs.flatMap escape ++ '"' :: rest) = .ok (cs, rest) := by
  induction cs generalizing bound with
  | nil =>
    cases bound with
    | nil => contradiction
    | cons b bound => rfl
  | cons c cs ih =>
    cases bound with
    | nil => contradiction
    | cons b bound =>
      rw [List.flatMap_cons, List.append_assoc, readStringBody_escape, ih (Nat.lt_of_succ_lt_succ h)]
      rfl

theorem length_le_flatMap_escape (cs : List Char) : cs.length ≤ (cs.flatMap escape).length := by
  induction cs with
  | nil => exact Nat.le_refl 0
  | cons c cs ih =>
    have hc : 1 ≤ (escape c).length := by
      obtain ⟨h, -⟩ | ⟨d, h, -⟩ | ⟨_, _, _, _, h, -⟩ := escape_cases c <;> simp [h]
    rw [List.flatMap_cons, List.length_append, List.length_cons]
    omega

/-- A string is read back from its quoted form. -/
theorem readString_quoted (s : String) (rest : List Char) :
    readString (s.toList.flatMap escape ++ '"' :: rest) = .ok (s, rest) := by
  have hlength := length_le_flatMap_escape s.toList
  rw [readString, readStringBody_flatMap_escape]
  · simp [bind, Except.bind, String.ofList_toList]
  · rw [List.length_append, List.length_cons]
    omega

end MockRedirect.Json
