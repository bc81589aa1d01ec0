import MockRedirect.Rule.Plan
/-! Plans: the ids that they give out, and which mocks get a rule. -/
namespace MockRedirect
open Text

theorem isManaged_iff {id : Nat} : isManaged id = true ↔ 1 ≤ id ∧ id ≤ lastManagedId := by
  simp [isManaged]

theorem MockId.isManaged_ruleId (id : MockId) : isManaged id.ruleId = true := by
  rw [isManaged_iff, ruleId, lastManagedId]
  omega

/-- When there is a rule for a mock, and which one. -/
theorem Mock.rule_eq_ok_iff {m : Mock} {id : Nat} {r : Rule} : m.rule id = .ok r ↔
    (trimmed m.urlTemplate ≠ "" ∧ isAscii (filterText (trimmed m.urlTemplate) m.verb).toList = true) ∧
      r = ⟨id, Rule.defaultPriority, .redirect (dataUrl m.body),
        ⟨filterText (trimmed m.urlTemplate) m.verb, [.xmlHttpRequest], [.post]⟩⟩ := by
  simp only [rule]
  split
  · next hno => exact iff_of_false (by simp) fun h => hno.elim h.1.1 (by simp [h.1.2])
  · next hno =>
    rw [not_or] at hno
    have hascii : isAscii (filterText (trimmed m.urlTemplate) m.verb).toList = true := by simpa using hno.2
    simp [hno.1, hascii, eq_comm (a := r)]

theorem Mock.id_of_rule {m : Mock} {id : Nat} {r : Rule} (h : m.rule id = .ok r) : r.id = id := by
  obtain ⟨-, rfl⟩ := rule_eq_ok_iff.1 h
  rfl

theorem Mock.priority_of_rule {m : Mock} {id : Nat} {r : Rule} (h : m.rule id = .ok r) :
    r.priority = Rule.defaultPriority := by
  obtain ⟨-, rfl⟩ := rule_eq_ok_iff.1 h
  rfl

theorem Mock.action_of_rule {m : Mock} {id : Nat} {r : Rule} (h : m.rule id = .ok r) :
    r.action = .redirect (dataUrl m.body) := by
  obtain ⟨-, rfl⟩ := rule_eq_ok_iff.1 h
  rfl

namespace Plan

/-- A list with all managed ids is as long as there are such ids. -/
theorem le_length_of_managed {ids : List Nat} (h : ∀ id, isManaged id = true → id ∈ ids) :
    lastManagedId ≤ ids.length := by
  have hsub : List.range' 1 lastManagedId ⊆ ids := fun id hid => by
    rw [List.mem_range'_1] at hid
    exact h id (isManaged_iff.2 (by omega))
  simpa using (List.nodup_range' 1).length_le_of_subset hsub

/-! ### Free ids -/

theorem isManaged_nextId (id : Nat) : isManaged (nextId id) = true := by
  rw [isManaged_iff, nextId, lastManagedId]
  omega

theorem freeId?_go_some {used : Std.HashSet Nat} {fuel id free : Nat} (hid : isManaged id = true)
    (h : freeId?.go used fuel id = some free) : isManaged free = true ∧ free ∉ used := by
  induction fuel generalizing id with
  | zero => contradiction
  | succ fuel ih =>
    rw [freeId?.go] at h
    split at h
    · exact ih (isManaged_nextId id) h
    · next hu =>
      cases h
      exact ⟨hid, by simpa using hu⟩

/-- How many steps lead from one managed id to another. -/
def stepsTo (id target : Nat) : Nat := (target + lastManagedId - id) % lastManagedId

theorem stepsTo_nextId {id target : Nat} (hid : isManaged id = true)
    (ht : isManaged target = true) (hne : target ≠ id) :
    stepsTo (nextId id) target + 1 = stepsTo id target := by
  rw [isManaged_iff] at hid ht
  unfold stepsTo nextId lastManagedId at *
  omega

theorem freeId?_go_none {used : Std.HashSet Nat} {fuel id target : Nat} (hid : isManaged id = true)
    (ht : isManaged target = true) (h : freeId?.go used fuel id = none)
    (hlt : stepsTo id target < fuel) : target ∈ used := by
  induction fuel generalizing id with
  | zero => omega
  | succ fuel ih =>
    rw [freeId?.go] at h
    split at h
    · next hu =>
      by_cases hne : target = id
      · subst hne
        simpa using hu
      · have hs := stepsTo_nextId hid ht hne
        exact ih (isManaged_nextId id) h (by omega)
    · contradiction

/-- An id that is found is managed and free. -/
theorem freeId?_eq_some {used : Std.HashSet Nat} {preferred free : Nat}
    (hp : isManaged preferred = true) (h : freeId? used preferred = some free) :
    isManaged free = true ∧ free ∉ used := freeId?_go_some hp h

/-- No id is found only if all managed ids are used. -/
theorem freeId?_eq_none {used : Std.HashSet Nat} {preferred target : Nat}
    (hp : isManaged preferred = true) (ht : isManaged target = true)
    (h : freeId? used preferred = none) : target ∈ used :=
  freeId?_go_none hp ht h (Nat.mod_lt _ (by decide))

/-! ### Planned rules -/

/-- What holds of a plan whatever mocks it is made of. -/
structure Sound (p : Plan) : Prop where
  used : ∀ id, id ∈ p.used ↔ id ∈ p.rules.toList.map (·.id)
  managed : ∀ r ∈ p.rules.toList, isManaged r.id = true
  priority : ∀ r ∈ p.rules.toList, r.priority = Rule.defaultPriority

theorem sound_empty : Sound empty := ⟨by simp [empty], by simp [empty], by simp [empty]⟩

/-- What planning one more mock does: nothing, skipping it, or a rule under a free id. -/
theorem add_cases (p : Plan) (m : Mock) :
    p.add m = p ∧ m.enabled = false ∨
    m.enabled = true ∧ p.add m = { p with skipped := p.skipped.push m.id } ∧
      (freeId? p.used m.id.ruleId = none ∨ ∃ id cause, m.rule id = .error cause) ∨
    m.enabled = true ∧ ∃ id r, freeId? p.used m.id.ruleId = some id ∧ m.rule id = .ok r ∧
      p.add m = { p with used := p.used.insert id, rules := p.rules.push r } := by
  unfold add
  cases he : m.enabled with
  | false => simp
  | true =>
    cases hf : freeId? p.used m.id.ruleId with
    | none => simp
    | some id =>
      cases hr : m.rule id with
      | error cause =>
        have hex : ∃ id cause, m.rule id = .error cause := ⟨id, cause, hr⟩
        simp [hr, hex]
      | ok r => simp [hr]

theorem Sound.add {p : Plan} (h : Sound p) (m : Mock) : Sound (p.add m) := by
  obtain ⟨hp, -⟩ | ⟨-, hp, -⟩ | ⟨-, id, r, hf, hr, hp⟩ := add_cases p m
  · rwa [hp]
  · rw [hp]
    exact ⟨h.used, h.managed, h.priority⟩
  · obtain ⟨hm, hu⟩ := freeId?_eq_some (MockId.isManaged_ruleId m.id) hf
    have hid := Mock.id_of_rule hr
    rw [hp]
    constructor
    · intro j
      rw [Std.HashSet.mem_insert, h.used, Array.toList_push, List.map_append, List.mem_append, or_comm]
      simp [hid, eq_comm (a := id)]
    · intro s hs
      simp only [Array.toList_push, List.mem_append, List.mem_singleton] at hs
      rcases hs with hs | rfl
      · exact h.managed s hs
      · rw [hid]
        exact hm
    · intro s hs
      simp only [Array.toList_push, List.mem_append, List.mem_singleton] at hs
      rcases hs with hs | rfl
      · exact h.priority s hs
      · exact Mock.priority_of_rule hr

theorem sound_ofMocks (mocks : List Mock) : Sound (ofMocks mocks) :=
  mocks.foldlRecOn add sound_empty fun _ h m _ => h.add m

/-! ### Mocks that get a rule -/

theorem rules_add (p : Plan) (m : Mock) : p.rules.toList <+: (p.add m).rules.toList := by
  obtain ⟨hp, -⟩ | ⟨-, hp, -⟩ | ⟨-, id, r, -, -, hp⟩ := add_cases p m
  · exact hp.symm ▸ List.prefix_rfl
  · exact hp.symm ▸ List.prefix_rfl
  · rw [hp, Array.toList_push]
    exact List.prefix_append _ _

theorem rules_foldl (p : Plan) (mocks : List Mock) :
    p.rules.toList <+: (mocks.foldl add p).rules.toList := by
  induction mocks generalizing p with
  | nil => exact List.prefix_rfl
  | cons m mocks ih => exact (rules_add p m).trans (ih _)

/-- Without a free id there is a rule for each managed id. -/
theorem Sound.length_of_freeId?_eq_none {p : Plan} (h : Sound p) {preferred : Nat}
    (hp : isManaged preferred = true) (hf : freeId? p.used preferred = none) :
    lastManagedId ≤ p.rules.toList.length := by
  have hall : ∀ id, isManaged id = true → id ∈ p.rules.toList.map (·.id) := fun id hid =>
    (h.used id).1 (freeId?_eq_none hp hid hf)
  simpa using le_length_of_managed hall

/-- What is planned up to a mock stands at the head of the plan. -/
theorem rules_add_prefix (before : List Mock) (m : Mock) (after : List Mock) :
    ((ofMocks before).add m).rules.toList <+: (ofMocks (before ++ m :: after)).rules.toList := by
  rw [ofMocks, ofMocks, List.foldl_append]
  exact rules_foldl _ after

/-- An enabled mock for which there can be a rule gets one, unless there are more rules than a table
holds. -/
theorem exists_rule_of_mem {mocks : List Mock} {m : Mock} (hm : m ∈ mocks) (he : m.enabled = true)
    (hr : ∀ id, ∃ r, m.rule id = .ok r) :
    (∃ id, ∃ r ∈ (ofMocks mocks).rules.toList, m.rule id = .ok r) ∨
      lastManagedId ≤ (ofMocks mocks).rules.toList.length := by
  obtain ⟨front, back, rfl⟩ := List.append_of_mem hm
  have hpre := rules_add_prefix front m back
  obtain ⟨-, hd⟩ | ⟨-, -, hf | ⟨id, cause, hc⟩⟩ | ⟨-, id, r, -, hok, hp⟩ := add_cases (ofMocks front) m
  · cases he.symm.trans hd
  · right
    have hlen := (sound_ofMocks front).length_of_freeId?_eq_none (MockId.isManaged_ruleId m.id) hf
    exact Nat.le_trans hlen ((rules_add _ m).trans hpre).length_le
  · obtain ⟨r, hok⟩ := hr id
    cases hc.symm.trans hok
  · refine Or.inl ⟨id, r, hpre.subset ?_, hok⟩
    rw [hp]
    simp

/-- A single mock gets the id that it prefers. -/
theorem rules_ofMocks_singleton {m : Mock} {r : Rule} (he : m.enabled = true)
    (hr : m.rule m.id.ruleId = .ok r) : (ofMocks [m]).rules.toList = [r] := by
  have hfree : freeId? empty.used m.id.ruleId = some m.id.ruleId := by
    have hgo : freeId? empty.used m.id.ruleId = freeId?.go empty.used (65534 + 1) m.id.ruleId := rfl
    rw [hgo, freeId?.go]
    simp [empty]
  rw [ofMocks, List.foldl_cons, List.foldl_nil, add, if_pos he]
  simp only [hfree, hr]
  simp [empty]

end Plan
end MockRedirect
