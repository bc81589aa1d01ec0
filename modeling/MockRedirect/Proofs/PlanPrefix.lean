import MockRedirect.Proofs.Assignment
/-! Plans of lists that grow or are thinned out. What is planned for some mocks stands at the head of the plan
for more of them, and a plan depends on the enabled mocks only; its rules depend only on those of them for
which there can be a rule. -/
namespace MockRedirect.Plan

theorem ofMocks_append (mocks later : List Mock) :
    ofMocks (mocks ++ later) = later.foldl add (ofMocks mocks) := List.foldl_append

/-! ### More mocks -/

theorem skipped_add (p : Plan) (m : Mock) : p.skipped.toList <+: (p.add m).skipped.toList := by
  obtain ⟨hp, -⟩ | ⟨-, hp, -⟩ | ⟨-, id, r, -, -, hp⟩ := add_cases p m
  · exact hp.symm ▸ List.prefix_rfl
  · rw [hp, Array.toList_push]
    exact List.prefix_append _ _
  · exact hp.symm ▸ List.prefix_rfl

theorem skipped_foldl (p : Plan) (mocks : List Mock) :
    p.skipped.toList <+: (mocks.foldl add p).skipped.toList := by
  induction mocks generalizing p with
  | nil => exact List.prefix_rfl
  | cons m mocks ih => exact (skipped_add p m).trans (ih _)

/-- Whatever becomes of the mocks of a list also becomes of them if more mocks follow. -/
theorem exists_accounts_append (mocks later : List Mock) : ∃ os os', Accounts (ofMocks mocks) mocks os ∧
    Accounts (ofMocks (mocks ++ later)) (mocks ++ later) (os ++ os') := by
  obtain ⟨os, ha⟩ := exists_accounts mocks
  obtain ⟨os', ha'⟩ := ha.foldl (sound_ofMocks mocks) later
  exact ⟨os, os', ha, ofMocks_append mocks later ▸ ha'⟩

/-! ### Fewer mocks -/

theorem foldl_add_enabled (p : Plan) (mocks : List Mock) :
    (mocks.filter (·.enabled)).foldl add p = mocks.foldl add p := by
  induction mocks generalizing p with
  | nil => rfl
  | cons m mocks ih =>
    cases he : m.enabled with
    | false =>
      rw [List.filter_cons_of_neg (by simp [he]), List.foldl_cons, add_of_disabled he]
      exact ih p
    | true =>
      rw [List.filter_cons_of_pos he]
      exact ih (p.add m)

/-- Of the mocks that come before, only the ids of their rules count. -/
theorem rules_add_congr {p q : Plan} (hused : p.used = q.used) (hrules : p.rules = q.rules) (m : Mock) :
    (p.add m).used = (q.add m).used ∧ (p.add m).rules = (q.add m).rules := by
  unfold add
  rw [hused, hrules]
  split
  · split
    · exact ⟨rfl, rfl⟩
    · split <;> exact ⟨rfl, rfl⟩
  · exact ⟨hused, hrules⟩

/-- A mock that should have no rule leaves the rules and their ids alone. -/
theorem rules_add_of_not_wantsRule {m : Mock} (h : m.wantsRule = false) (p : Plan) :
    (p.add m).used = p.used ∧ (p.add m).rules = p.rules := by
  obtain ⟨hp, -⟩ | ⟨-, hp, -⟩ | ⟨he, id, r, -, hr, -⟩ := add_cases p m
  · rw [hp]
    exact ⟨rfl, rfl⟩
  · rw [hp]
    exact ⟨rfl, rfl⟩
  · have hwants : m.wantsRule = true := by rw [Mock.wantsRule, he, Mock.isBuildable_of_rule hr]; rfl
    cases hwants.symm.trans h

theorem rules_foldl_wantsRule {p q : Plan} (hused : p.used = q.used) (hrules : p.rules = q.rules)
    (mocks : List Mock) : ((mocks.filter (·.wantsRule)).foldl add p).rules = (mocks.foldl add q).rules := by
  induction mocks generalizing p q with
  | nil => exact hrules
  | cons m mocks ih =>
    cases hm : m.wantsRule with
    | false =>
      obtain ⟨hu, hr⟩ := rules_add_of_not_wantsRule hm q
      rw [List.filter_cons_of_neg (by simp [hm]), List.foldl_cons]
      exact ih (hused.trans hu.symm) (hrules.trans hr.symm)
    | true =>
      obtain ⟨hu, hr⟩ := rules_add_congr hused hrules m
      rw [List.filter_cons_of_pos hm]
      exact ih hu hr

theorem ofMocks_congr {mocks others : List Mock}
    (h : others.filter (·.enabled) = mocks.filter (·.enabled)) : ofMocks others = ofMocks mocks := by
  rw [ofMocks, ofMocks, ← foldl_add_enabled, h, foldl_add_enabled]

/-- The plan for a list with more mocks at its end starts with the rules and the skipped ids of the plan for
the list: what becomes of each mock of the list stays the same. Without the disabled mocks of a list, or with
others put in anywhere, the plan is the same. Of the enabled ones those for which there can be no rule have
no say in the rules. -/
theorem ofMocks_stable (mocks later : List Mock) :
    (ofMocks mocks).rules.toList <+: (ofMocks (mocks ++ later)).rules.toList ∧
    (ofMocks mocks).skipped.toList <+: (ofMocks (mocks ++ later)).skipped.toList ∧
    (∃ os os', Accounts (ofMocks mocks) mocks os ∧
      Accounts (ofMocks (mocks ++ later)) (mocks ++ later) (os ++ os')) ∧
    ofMocks (mocks.filter (·.enabled)) = ofMocks mocks ∧
    (∀ others : List Mock, others.filter (·.enabled) = mocks.filter (·.enabled) →
      ofMocks others = ofMocks mocks) ∧
    (ofMocks (mocks.filter (·.wantsRule))).rules = (ofMocks mocks).rules := by
  refine ⟨?_, ?_, exists_accounts_append mocks later, foldl_add_enabled empty mocks,
    fun others h => ofMocks_congr h, rules_foldl_wantsRule rfl rfl mocks⟩
  · rw [ofMocks_append]
    exact rules_foldl _ later
  · rw [ofMocks_append]
    exact skipped_foldl _ later

end MockRedirect.Plan
