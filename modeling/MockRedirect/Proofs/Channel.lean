import MockRedirect.Store.Channel
/-! What a reader of a channel has not taken yet: one notice after the other, and none is lost without
a notice that says so. -/
namespace MockRedirect.Channel

theorem dropped_le_sent (ch : Channel) : ch.dropped ≤ ch.sent := Nat.sub_le _ _

theorem length_recent (ch : Channel) : ch.recent.length = ch.sent - ch.dropped := by
  have h := ch.kept
  unfold dropped
  omega

theorem dropped_send (ch : Channel) (c : Change) :
    ch.dropped ≤ (ch.send c).dropped ∧ (ch.send c).dropped ≤ ch.sent := by
  have h := ch.kept
  have hs := (ch.send c).kept
  simp only [dropped, send, capacity] at *
  omega

theorem mem_unread {ch : Channel} {seen : Nat} {n : Notice} :
    n ∈ ch.unread seen ↔ (seen < ch.dropped ∧ n = .lagged (ch.dropped - seen)) ∨
      ∃ c ∈ ch.recent.drop (seen - ch.dropped), n = .change c := by
  unfold unread
  by_cases h : seen < ch.dropped
  · simp [h, Nat.sub_ne_zero_of_lt h, eq_comm (a := n), -List.map_drop]
  · simp [h, Nat.sub_eq_zero_of_le (Nat.not_lt.1 h), eq_comm (a := n), -List.map_drop]

/-- What is unread before a notice is taken is that notice and what is unread after it. -/
theorem unread_eq (ch : Channel) (seen : Nat) :
    ch.unread seen = match ch.receive? seen with
      | none => []
      | some (n, seen) => n :: ch.unread seen := by
  unfold receive?
  by_cases h : seen < ch.dropped
  · have hd : ch.dropped - seen ≠ 0 := Nat.sub_ne_zero_of_lt h
    simp [unread, h, hd, Nat.sub_eq_zero_of_le (Nat.le_of_lt h)]
  · have hle := Nat.not_lt.1 h
    simp only [h, if_false, unread, Nat.sub_eq_zero_of_le hle, if_true, List.nil_append]
    cases hc : ch.recent[seen - ch.dropped]? with
    | none =>
      rw [List.getElem?_eq_none_iff] at hc
      simp [List.drop_eq_nil_of_le hc]
    | some c =>
      obtain ⟨hlt, rfl⟩ := List.getElem?_eq_some_iff.1 hc
      have hs : seen + 1 - ch.dropped = seen - ch.dropped + 1 := by omega
      simp only [Option.map_some, hs, Nat.sub_eq_zero_of_le (Nat.le_succ_of_le hle), if_true,
        List.nil_append]
      rw [List.drop_eq_getElem_cons hlt, List.map_cons]

theorem seen_le_sent_of_receive? {ch : Channel} {seen seen' : Nat} {n : Notice}
    (h : ch.receive? seen = some (n, seen')) : seen' ≤ ch.sent := by
  unfold receive? at h
  split at h
  · cases h
    exact dropped_le_sent ch
  · obtain ⟨c, hc, heq⟩ := Option.map_eq_some_iff.1 h
    cases heq
    obtain ⟨hlt, -⟩ := List.getElem?_eq_some_iff.1 hc
    rw [length_recent] at hlt
    omega

/-! ### Sending -/

theorem recent_send (ch : Channel) (c : Change) :
    (ch.send c).recent = (ch.recent ++ [c]).drop ((ch.send c).dropped - ch.dropped) := by
  have h := ch.kept
  have hs := (ch.send c).kept
  have hd : (ch.send c).dropped - ch.dropped = ch.recent.length + 1 - capacity := by
    simp only [dropped, send, capacity] at *
    omega
  rw [hd]
  rfl

/-- A change that is sent is unread by everyone. -/
theorem mem_unread_send (ch : Channel) (c : Change) {seen : Nat} (h : seen ≤ ch.sent) :
    .change c ∈ (ch.send c).unread seen := by
  refine mem_unread.2 (Or.inr ⟨c, ?_, rfl⟩)
  obtain ⟨h₁, h₂⟩ := dropped_send ch c
  have hl := length_recent ch
  rw [recent_send, List.drop_drop, List.drop_append_of_le_length (by omega)]
  simp

/-- What was unread stays unread, or the reader learns that it has missed something. -/
theorem unread_send {ch : Channel} {c : Change} {seen : Nat} {n : Notice}
    (h : n ∈ ch.unread seen) :
    n ∈ (ch.send c).unread seen ∨ ∃ missed, .lagged missed ∈ (ch.send c).unread seen := by
  obtain ⟨h₁, -⟩ := dropped_send ch c
  by_cases hlag : seen < (ch.send c).dropped
  · exact Or.inr ⟨_, mem_unread.2 (Or.inl ⟨hlag, rfl⟩)⟩
  · left
    obtain ⟨hlt, -⟩ | ⟨d, hd, rfl⟩ := mem_unread.1 h
    · omega
    · refine mem_unread.2 (Or.inr ⟨d, ?_, rfl⟩)
      have hs : (ch.send c).dropped - ch.dropped + (seen - (ch.send c).dropped) =
          seen - ch.dropped := by omega
      rw [recent_send, List.drop_drop, hs]
      rw [List.drop_append]
      exact List.mem_append_left _ hd

end MockRedirect.Channel
