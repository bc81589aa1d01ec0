import MockRedirect.Text.Case
/-! Facts about ASCII characters, which are few enough to be checked one by one, and about folding. -/
namespace MockRedirect.Text

theorem of_ascii {p : Char → Prop} (h : ∀ n, n < 128 → p (Char.ofNat n)) {c : Char}
    (hc : c.toNat < 128) : p c := by
  have hn := h c.toNat hc
  rwa [Char.ofNat_toNat] at hn

/-- What is decided of each character of a text. -/
theorem forall_mem_of_all {p : Char → Prop} [DecidablePred p] {s : List Char}
    (h : (s.all fun c => decide (p c)) = true) : ∀ c ∈ s, p c := by
  simpa using h

theorem toNat_lt_of_le {c d : Char} (h : c ≤ d) (hd : d.toNat < 128) : c.toNat < 128 :=
  Nat.lt_of_le_of_lt h hd

theorem toNat_lt_of_isAsciiLower {c : Char} (h : isAsciiLower c = true) : c.toNat < 128 := by
  simp only [isAsciiLower, Bool.and_eq_true, decide_eq_true_eq] at h
  exact toNat_lt_of_le h.2 (by decide)

theorem toNat_lt_of_isAsciiUpper {c : Char} (h : isAsciiUpper c = true) : c.toNat < 128 := by
  simp only [isAsciiUpper, Bool.and_eq_true, decide_eq_true_eq] at h
  exact toNat_lt_of_le h.2 (by decide)

theorem toNat_lt_of_isAsciiDigit {c : Char} (h : isAsciiDigit c = true) : c.toNat < 128 := by
  simp only [isAsciiDigit, Bool.and_eq_true, decide_eq_true_eq] at h
  exact toNat_lt_of_le h.2 (by decide)

theorem toNat_lt_of_isAsciiLetter {c : Char} (h : isAsciiLetter c = true) : c.toNat < 128 :=
  (Bool.or_eq_true _ _ ▸ h).elim toNat_lt_of_isAsciiUpper toNat_lt_of_isAsciiLower

theorem toNat_lt_of_isAlphanum {c : Char} (h : c.isAlphanum = true) : c.toNat < 128 := by
  delta Char.isAlphanum Char.isAlpha Char.isUpper Char.isLower Char.isDigit at h
  simp only [Bool.or_eq_true, Bool.and_eq_true, decide_eq_true_eq, ge_iff_le] at h
  rcases h with (⟨_, h⟩ | ⟨_, h⟩) | ⟨_, h⟩ <;> exact toNat_lt_of_le h (by decide)

/-- What folds to an ASCII character is that character in some case, or one of two letters. -/
theorem folded_cases (c : Char) :
    c.toNat < 128 ∨ (c = '\u212a' ∧ folded c = 'k') ∨ (c = '\u017f' ∧ folded c = 's') ∨
      (128 ≤ c.toNat ∧ folded c = c) := by
  by_cases hc : c.toNat < 128
  · exact .inl hc
  by_cases hk : c = '\u212a'
  · exact .inr (.inl ⟨hk, by simp [folded, hk]⟩)
  by_cases hs : c = '\u017f'
  · exact .inr (.inr (.inl ⟨hs, by simp [folded, hs]⟩))
  have hu : isAsciiUpper c = false := by
    simp only [isAsciiUpper, Bool.and_eq_false_iff, decide_eq_false_iff_not]
    exact .inr fun h => hc (toNat_lt_of_le h (by decide))
  exact .inr (.inr (.inr ⟨Nat.le_of_not_lt hc, by simp [folded, lower, hk, hs, hu]⟩))

@[simp] theorem folded_folded (c : Char) : folded (folded c) = folded c := by
  rcases folded_cases c with hc | ⟨_, h⟩ | ⟨_, h⟩ | ⟨_, h⟩
  · exact of_ascii (p := fun c => folded (folded c) = folded c) (by decide +kernel) hc
  · rw [h]; rfl
  · rw [h]; rfl
  · rw [h, h]

/-- What does not become a letter when case does not count is left alone. -/
theorem folded_eq_self {c : Char} (h : isAsciiLetter (folded c) = false) : folded c = c := by
  obtain hc | ⟨-, hc⟩ | ⟨-, hc⟩ | ⟨-, hc⟩ := folded_cases c
  · exact of_ascii (p := fun c => isAsciiLetter (folded c) = false → folded c = c) (by decide +kernel) hc h
  · rw [hc] at h
    contradiction
  · rw [hc] at h
    contradiction
  · exact hc

theorem folded_upper {c : Char} (h : isAsciiLetter c = true) : folded (upper c) = folded c :=
  of_ascii (p := fun c => folded (upper c) = folded c) (by decide +kernel) (toNat_lt_of_isAsciiLetter h)

end MockRedirect.Text
