import MockRedirect.Rule.Table
/-! Rule tables under transactions: the order of the rules, what is left of them, and which rules can
be added. -/
namespace MockRedirect.Table
open List

/-! ### Order -/

theorem sorted_perm (t : Table) : t.sorted ~ t := mergeSort_perm t _

theorem pairwise_sorted (t : Table) : t.sorted.Pairwise (·.id ≤ ·.id) := by
  have h : t.sorted.Pairwise fun a b => decide (a.id ≤ b.id) = true :=
    pairwise_mergeSort (by grind) (by grind) t
  exact h.imp of_decide_eq_true

/-- Sorting keeps the rules with one id in order. -/
theorem filter_id_sorted (t : Table) (k : Nat) :
    t.sorted.filter (·.id = k) = t.filter (·.id = k) := by
  have hs : (t.filter (·.id = k)).Pairwise fun a b => decide (a.id ≤ b.id) = true := by
    refine pairwise_of_forall_mem_list fun a ha b hb => ?_
    grind
  have hsub := (sublist_mergeSort (by grind) (by grind) hs filter_sublist).filter (·.id = k)
  rw [filter_filter] at hsub
  simp only [Bool.and_self] at hsub
  exact (hsub.eq_of_length ((sorted_perm t).filter _).length_eq.symm).symm

theorem mem_of_filter_id {t u : Table} (h : ∀ k, t.filter (·.id = k) = u.filter (·.id = k))
    {r : Rule} (hr : r ∈ t) : r ∈ u := by
  have hk : r ∈ u.filter (·.id = r.id) := h r.id ▸ mem_filter.2 ⟨hr, by simp⟩
  exact (mem_filter.1 hk).1

/-- A sorted table is known from the rules that it has under each id. -/
theorem eq_of_filter_id {t u : Table} (ht : t.Pairwise (·.id ≤ ·.id)) (hu : u.Pairwise (·.id ≤ ·.id))
    (h : ∀ k, t.filter (·.id = k) = u.filter (·.id = k)) : t = u := by
  induction t generalizing u with
  | nil =>
    cases u with
    | nil => rfl
    | cons b u => simpa using h b.id
  | cons a t ih =>
    cases u with
    | nil => simpa using h a.id
    | cons b u =>
      have ha : a ∈ b :: u := mem_of_filter_id h mem_cons_self
      have hb : b ∈ a :: t := mem_of_filter_id (fun k => (h k).symm) mem_cons_self
      rw [pairwise_cons] at ht hu
      have hid : b.id = a.id := by
        rcases mem_cons.1 ha with rfl | ha
        · rfl
        · rcases mem_cons.1 hb with rfl | hb
          · rfl
          · exact Nat.le_antisymm (hu.1 a ha) (ht.1 b hb)
      have hab : a = b := by simpa [hid] using congrArg head? (h a.id)
      subst hab
      refine congrArg (a :: ·) (ih ht.2 hu.2 fun k => ?_)
      have hk := h k
      by_cases hka : a.id = k
      · simpa [hka] using hk
      · simpa [hka] using hk

theorem sorted_eq_sorted {t u : Table} (h : ∀ k, t.filter (·.id = k) = u.filter (·.id = k)) :
    t.sorted = u.sorted := by
  refine eq_of_filter_id (pairwise_sorted t) (pairwise_sorted u) fun k => ?_
  rw [filter_id_sorted, filter_id_sorted, h]

theorem filter_sorted (t : Table) (p : Rule → Bool) : t.sorted.filter p = sorted (t.filter p) := by
  refine eq_of_filter_id ((pairwise_sorted t).filter p) (pairwise_sorted _) fun k => ?_
  rw [filter_id_sorted, filter_filter, filter_filter]
  simp only [Bool.and_comm]
  rw [← filter_filter, ← filter_filter, filter_id_sorted]

theorem sorted_sorted_append (t u : Table) : sorted (t.sorted ++ u) = sorted (t ++ u) :=
  sorted_eq_sorted fun k => by simp [filter_append, filter_id_sorted]

/-! ### Removing -/

/-- Removing the ids of some kind leaves the rules that are not of the kind. -/
theorem remove_ids (t : Table) (kind : Nat → Bool) :
    t.remove ((t.map (·.id)).filter kind) = t.filter (!kind ·.id) := by
  refine filter_congr fun r hr => ?_
  have hm : r.id ∈ t.map (·.id) := mem_map_of_mem hr
  simp [hm]

/-! ### Adding -/

/-- What a table asks of the rules that are added to it. -/
structure Accepts (kept : Table) (added : List Rule) : Prop where
  nonzero : ∀ r ∈ added, r.id ≠ 0
  unused : ∀ r ∈ added, r.id ∉ kept.map (·.id)
  distinct : (added.map (·.id)).Nodup
  readable : ∀ r ∈ added, ∃ f, UrlFilter.parse r.condition.urlFilter = .ok f
  fits : (kept ++ added).length ≤ ruleLimit

theorem accept_eq_ok_iff {used next : Std.HashSet Nat} {r : Rule} :
    accept used r = .ok next ↔ r.id ≠ 0 ∧ r.id ∉ used ∧
      (∃ f, UrlFilter.parse r.condition.urlFilter = .ok f) ∧ next = used.insert r.id := by
  unfold accept
  split
  · next h0 => simp [h0]
  · next h0 =>
    split
    · next hu => simp [Std.HashSet.mem_iff_contains, hu]
    · next hu =>
      cases hf : UrlFilter.parse r.condition.urlFilter with
      | error fault => simp
      | ok f => simp [h0, Std.HashSet.mem_iff_contains, hu, eq_comm (a := next)]

/-- Rules pass one after the other if each passes on its own and no two have the same id. -/
theorem foldlM_accept_iff {added : List Rule} {used : Std.HashSet Nat} :
    (∃ next, added.foldlM accept used = .ok next) ↔
      (∀ r ∈ added, r.id ≠ 0 ∧ r.id ∉ used ∧ ∃ f, UrlFilter.parse r.condition.urlFilter = .ok f) ∧
      (added.map (·.id)).Nodup := by
  induction added generalizing used with
  | nil => simp [pure, Except.pure]
  | cons r added ih =>
    have hstep : (∃ next, (r :: added).foldlM accept used = .ok next) ↔
        ∃ mid, accept used r = .ok mid ∧ ∃ next, added.foldlM accept mid = .ok next := by
      rw [foldlM_cons]
      cases accept used r <;> simp [bind, Except.bind]
    rw [hstep]
    constructor
    · rintro ⟨mid, hr, hmid⟩
      obtain ⟨h0, hu, hf, rfl⟩ := accept_eq_ok_iff.1 hr
      obtain ⟨hall, hnd⟩ := ih.1 hmid
      refine ⟨?_, ?_⟩
      · simp only [forall_mem_cons]
        exact ⟨⟨h0, hu, hf⟩, fun s hs => by grind⟩
      · rw [map_cons, nodup_cons]
        exact ⟨by grind, hnd⟩
    · rintro ⟨hall, hnd⟩
      rw [forall_mem_cons] at hall
      rw [map_cons, nodup_cons] at hnd
      obtain ⟨⟨h0, hu, hf⟩, hrest⟩ := hall
      refine ⟨_, accept_eq_ok_iff.2 ⟨h0, hu, hf, rfl⟩, ih.2 ⟨fun s hs => ?_, hnd.2⟩⟩
      grind

theorem add_eq_ok_iff {kept next : Table} {added : List Rule} :
    kept.add added = .ok next ↔ Accepts kept added ∧ next = sorted (kept ++ added) := by
  have hadd : kept.add added = .ok next ↔
      (∃ used, added.foldlM accept (Std.HashSet.ofList (kept.map (·.id))) = .ok used) ∧
        (kept ++ added).length ≤ ruleLimit ∧ next = sorted (kept ++ added) := by
    unfold add
    cases added.foldlM accept (Std.HashSet.ofList (kept.map (·.id))) with
    | error fault => simp [bind, Except.bind]
    | ok used =>
      simp only [bind, Except.bind]
      split
      · next hl => simp [Nat.not_le.2 hl, -length_append]
      · next hl => simp [Nat.not_lt.1 hl, eq_comm (a := next), -length_append]
  rw [hadd, foldlM_accept_iff]
  constructor
  · rintro ⟨⟨hall, hnd⟩, hlen, rfl⟩
    refine ⟨⟨fun r hr => (hall r hr).1, fun r hr => ?_, hnd, fun r hr => (hall r hr).2.2, hlen⟩, rfl⟩
    simpa using (hall r hr).2.1
  · rintro ⟨⟨h0, hu, hnd, hf, hlen⟩, rfl⟩
    refine ⟨⟨fun r hr => ⟨h0 r hr, ?_, hf r hr⟩, hnd⟩, hlen, rfl⟩
    simpa using hu r hr

end MockRedirect.Table
