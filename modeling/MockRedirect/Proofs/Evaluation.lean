import MockRedirect.Proofs.Table
import Mathlib.Data.List.Nodup
/-! Requests: which rule of a table decides about one. The rules are looked at one after the other, and the best of
those that match is kept. Whatever the order of the table, in the end this is a rule before which no other one goes. -/
namespace MockRedirect
open List

/-! ### One rule -/

/-- The types, the methods and the filter of a rule all accept a request. -/
structure Rule.Matches (r : Rule) (q : Request) : Prop where
  type : r.condition.resourceTypes = [] ∨ q.resourceType ∈ r.condition.resourceTypes
  method : r.condition.requestMethods = [] ∨ q.method ∈ r.condition.requestMethods
  filter : ∃ f, UrlFilter.parse r.condition.urlFilter = .ok f ∧ f.admits q.url = true

/-- A rule has a higher priority than another one, or the same priority and no higher id. -/
def Rule.Precedes (r s : Rule) : Prop :=
  s.priority < r.priority ∨ (s.priority = r.priority ∧ r.id ≤ s.id)

namespace Rule

variable {r s u : Rule}

theorem Precedes.refl (r : Rule) : r.Precedes r := .inr ⟨rfl, Nat.le_refl _⟩

theorem Precedes.trans (h : r.Precedes s) (h' : s.Precedes u) : r.Precedes u := by
  unfold Precedes at *
  omega

theorem Precedes.id_eq (h : r.Precedes s) (h' : s.Precedes r) : r.id = s.id := by
  unfold Precedes at *
  omega

end Rule

namespace Table

variable {t u : Table} {q : Request} {r : Rule} {best : Option Rule}

/-- A rule with a filter that can be read admits a request or does not. -/
theorem exists_admits (h : ∃ f, UrlFilter.parse r.condition.urlFilter = .ok f) (q : Request) :
    ∃ b, admits r q = .ok b := by
  obtain ⟨f, hf⟩ := h
  simp only [admits]
  split
  · exact ⟨false, rfl⟩
  · split
    · exact ⟨false, rfl⟩
    · exact ⟨f.admits q.url, by rw [hf]; rfl⟩

theorem admits_eq_ok_true_iff : admits r q = .ok true ↔ r.Matches q := by
  simp only [admits]
  split
  · next htype =>
    refine iff_of_false (by simp) fun h => ?_
    exact h.type.elim htype.1 htype.2
  · next htype =>
    split
    · next hmethod =>
      refine iff_of_false (by simp) fun h => ?_
      exact h.method.elim hmethod.1 hmethod.2
    · next hmethod =>
      rw [not_and_or, not_not, not_not] at htype hmethod
      have hmap : (UrlFilter.parse r.condition.urlFilter).map (fun f => f.admits q.url) = .ok true ↔
          ∃ f, UrlFilter.parse r.condition.urlFilter = .ok f ∧ f.admits q.url = true := by
        cases UrlFilter.parse r.condition.urlFilter <;> simp [Except.map]
      rw [hmap]
      exact ⟨fun hfilter => ⟨htype, hmethod, hfilter⟩, fun h => h.filter⟩

/-- Of two rules the better one is one of them, and it precedes both. -/
theorem better_cases (b r : Rule) :
    (better (some b) r = b ∧ b.Precedes r) ∨ (better (some b) r = r ∧ r.Precedes b) := by
  simp only [better]
  split
  · next h => exact .inl ⟨rfl, h.imp_right fun ⟨hp, hid⟩ => ⟨hp.symm, hid⟩⟩
  · next h =>
    refine .inr ⟨rfl, ?_⟩
    unfold Rule.Precedes
    omega

/-! ### All rules -/

/-- What decides about a request: no rule if none matches it, and otherwise a rule that matches it and precedes
all others that do. -/
inductive Decides (t : Table) (q : Request) : Option Rule → Prop
  | none (hnone : ∀ r ∈ t, ¬r.Matches q) : Decides t q none
  | some {r : Rule} (hmem : r ∈ t) (hmatch : r.Matches q)
    (hbest : ∀ s ∈ t, s.Matches q → r.Precedes s) : Decides t q (some r)

/-- The best rule, with one more rule taken into account. -/
def consider (q : Request) (best : Option Rule) (r : Rule) : Except FilterError (Option Rule) := do
  if ← admits r q then .ok (some (better best r)) else .ok best

theorem evaluate_eq_foldlM (t : Table) (q : Request) : t.evaluate q = t.foldlM (consider q) none := rfl

theorem Decides.append_not_matches (h : Decides t q best) (hr : ¬r.Matches q) : Decides (t ++ [r]) q best := by
  cases h with
  | none hnone =>
    refine .none fun s hs => ?_
    obtain hs | hs := mem_append.1 hs
    · exact hnone s hs
    · exact mem_singleton.1 hs ▸ hr
  | some hmem hmatch hbest =>
    refine .some (mem_append_left _ hmem) hmatch fun s hs hsq => ?_
    obtain hs | hs := mem_append.1 hs
    · exact hbest s hs hsq
    · exact absurd (mem_singleton.1 hs ▸ hsq) hr

theorem Decides.append_matches (h : Decides t q best) (hr : r.Matches q) :
    Decides (t ++ [r]) q (Option.some (better best r)) := by
  have hlast : r ∈ t ++ [r] := mem_append_right _ mem_cons_self
  cases h with
  | none hnone =>
    refine .some hlast hr fun s hs hsq => ?_
    obtain hs | hs := mem_append.1 hs
    · exact absurd hsq (hnone s hs)
    · exact mem_singleton.1 hs ▸ Rule.Precedes.refl r
  | @some b hmem hmatch hbest =>
    obtain ⟨heq, hbr⟩ | ⟨heq, hrb⟩ := better_cases b r
    · rw [heq]
      refine .some (mem_append_left _ hmem) hmatch fun s hs hsq => ?_
      obtain hs | hs := mem_append.1 hs
      · exact hbest s hs hsq
      · exact mem_singleton.1 hs ▸ hbr
    · rw [heq]
      refine .some hlast hr fun s hs hsq => ?_
      obtain hs | hs := mem_append.1 hs
      · exact hrb.trans (hbest s hs hsq)
      · exact mem_singleton.1 hs ▸ Rule.Precedes.refl r

/-- What decides among the rules so far and one more rule give what decides among all of them. -/
theorem Decides.consider (h : Decides t q best) (hread : ∃ f, UrlFilter.parse r.condition.urlFilter = .ok f) :
    ∃ next, consider q best r = .ok next ∧ Decides (t ++ [r]) q next := by
  obtain ⟨b, hb⟩ := exists_admits hread q
  cases b with
  | true =>
    exact ⟨_, by rw [Table.consider, hb]; rfl, h.append_matches (admits_eq_ok_true_iff.1 hb)⟩
  | false =>
    have hr : ¬r.Matches q := fun hr => by
      rw [admits_eq_ok_true_iff.2 hr] at hb
      cases hb
    exact ⟨_, by rw [Table.consider, hb]; rfl, h.append_not_matches hr⟩

theorem Decides.foldlM (h : Decides t q best) (hread : ∀ r ∈ u, ∃ f, UrlFilter.parse r.condition.urlFilter = .ok f) :
    ∃ out, u.foldlM (Table.consider q) best = .ok out ∧ Decides (t ++ u) q out := by
  induction u generalizing t best with
  | nil => exact ⟨best, rfl, by rwa [append_nil]⟩
  | cons r u ih =>
    rw [forall_mem_cons] at hread
    obtain ⟨next, hnext, hdecides⟩ := h.consider hread.1
    obtain ⟨out, hout, hall⟩ := ih hdecides hread.2
    refine ⟨out, ?_, by simpa using hall⟩
    rw [foldlM_cons, hnext]
    exact hout

/-- A table whose filters can all be read answers each request. -/
theorem exists_decides (hread : ∀ r ∈ t, ∃ f, UrlFilter.parse r.condition.urlFilter = .ok f) (q : Request) :
    ∃ best, t.evaluate q = .ok best ∧ Decides t q best := by
  have hstart : Decides [] q none := .none (by simp)
  rw [evaluate_eq_foldlM]
  exact hstart.foldlM hread

theorem Decides.isSome_iff (h : Decides t q best) : best.isSome = true ↔ ∃ r ∈ t, r.Matches q := by
  cases h with
  | none hnone => simpa using hnone
  | some hmem hmatch _ => exact iff_of_true rfl ⟨_, hmem, hmatch⟩

/-- If all filters can be read, some rule decides about a request exactly if some rule admits it. -/
theorem evaluate_isSome_iff (h : ∀ r ∈ t, ∃ f, UrlFilter.parse r.condition.urlFilter = .ok f) (q : Request) :
    ∃ best, t.evaluate q = .ok best ∧ (best.isSome = true ↔ ∃ r ∈ t, admits r q = .ok true) := by
  obtain ⟨best, hbest, hdecides⟩ := exists_decides h q
  simp only [admits_eq_ok_true_iff]
  exact ⟨best, hbest, hdecides.isSome_iff⟩

/-- Among rules with different ids at most one decides, in whatever order they stand. -/
theorem Decides.eq_of_perm {best' : Option Rule} (h : Decides t q best) (h' : Decides u q best') (hperm : u ~ t)
    (hids : (t.map (·.id)).Nodup) : best = best' := by
  cases h with
  | none hnone =>
    cases h' with
    | none => rfl
    | some hmem hmatch => exact absurd hmatch (hnone _ (hperm.mem_iff.1 hmem))
  | @some r hmem hmatch hbest =>
    cases h' with
    | none hnone => exact absurd hmatch (hnone _ (hperm.mem_iff.2 hmem))
    | @some s hmem' hmatch' hbest' =>
      have hs : s ∈ t := hperm.mem_iff.1 hmem'
      have hid : r.id = s.id := (hbest s hs hmatch').id_eq (hbest' r (hperm.mem_iff.2 hmem) hmatch)
      rw [inj_on_of_nodup_map hids hmem hs hid]

/-- If all filters of a table can be read, no rule decides about a request exactly if none matches it. Otherwise a
rule decides that matches it, and each other one that does has a lower priority, or the same priority and no lower
id. If the ids are different, the order of the table does not matter. -/
theorem evaluate_decides (hread : ∀ r ∈ t, ∃ f, UrlFilter.parse r.condition.urlFilter = .ok f) (q : Request) :
    (t.evaluate q = .ok none ↔ ∀ r ∈ t, ¬r.Matches q) ∧
    ((∃ r ∈ t, r.Matches q) → ∃ best ∈ t, t.evaluate q = .ok (some best) ∧ best.Matches q ∧
      ∀ s ∈ t, s.Matches q → s.priority < best.priority ∨ (s.priority = best.priority ∧ best.id ≤ s.id)) ∧
    ((t.map (·.id)).Nodup → ∀ u, u ~ t → evaluate u q = t.evaluate q) := by
  obtain ⟨best, hbest, hdecides⟩ := exists_decides hread q
  refine ⟨?_, ?_, ?_⟩
  · rw [hbest]
    cases hdecides with
    | none hnone => exact iff_of_true rfl hnone
    | some hmem hmatch => exact iff_of_false (by simp) fun hnone => hnone _ hmem hmatch
  · rintro ⟨r, hr, hmatch⟩
    cases hdecides with
    | none hnone => exact absurd hmatch (hnone r hr)
    | some hmem hmatch hfirst => exact ⟨_, hmem, hbest, hmatch, hfirst⟩
  · intro hids u hperm
    obtain ⟨best', hbest', hdecides'⟩ := exists_decides (fun r hr => hread r (hperm.mem_iff.1 hr)) q
    rw [hbest, hbest', hdecides.eq_of_perm hdecides' hperm hids]

/-- Two rules that match a request to `http://h/api/x`, the better one last, and one of a higher priority that does
not. -/
def unorderedTable : Table :=
  [⟨9, 1, .block, ⟨"*/api/", [], []⟩⟩, ⟨2, 5, .block, ⟨"||b.com/", [], []⟩⟩,
    ⟨3, 1, .block, ⟨"*/api/x", [.xmlHttpRequest], [.post, .put]⟩⟩]

theorem evaluate_decides_unordered :
    (∀ r ∈ unorderedTable, ∃ f, UrlFilter.parse r.condition.urlFilter = .ok f) ∧
      (unorderedTable.map (·.id)).Nodup ∧ ∃ best ∈ unorderedTable, best.id = 3 ∧
        unorderedTable.evaluate ⟨"http://h/api/x", .post, .xmlHttpRequest⟩ = .ok (some best) ∧
        evaluate unorderedTable.reverse ⟨"http://h/api/x", .post, .xmlHttpRequest⟩ = .ok (some best) := by
  have hread : ∀ r ∈ unorderedTable, ∃ f, UrlFilter.parse r.condition.urlFilter = .ok f := by
    simp only [unorderedTable, forall_mem_cons]
    exact ⟨⟨_, rfl⟩, ⟨_, rfl⟩, ⟨_, rfl⟩, by simp⟩
  have hids : (unorderedTable.map (·.id)).Nodup := by decide
  have hbest : unorderedTable.evaluate ⟨"http://h/api/x", .post, .xmlHttpRequest⟩ =
      .ok (some ⟨3, 1, .block, ⟨"*/api/x", [.xmlHttpRequest], [.post, .put]⟩⟩) := rfl
  obtain ⟨-, -, hperm⟩ := evaluate_decides hread ⟨"http://h/api/x", .post, .xmlHttpRequest⟩
  refine ⟨hread, hids, _, by simp [unorderedTable], rfl, hbest, ?_⟩
  rw [hperm hids _ (reverse_perm _), hbest]

end Table
end MockRedirect
