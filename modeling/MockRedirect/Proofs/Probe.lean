import MockRedirect.Proofs.Plan
/-! Probing in the cyclic order of the managed ids. Ids are given out one after the other, each time the
first free one from the id that is asked for on. Which ids are in use in the end can be told from the ids
that were asked for, in whatever order: an id is in use exactly if some run of ids that ends with it was
asked for more often than the run without it has room for. -/
namespace MockRedirect.Plan

/-! ### The cyclic order -/

theorem stepsTo_lt (id target : Nat) : stepsTo id target < lastManagedId := Nat.mod_lt _ (by decide)

@[simp] theorem stepsTo_self (id : Nat) : stepsTo id id = 0 := by simp [stepsTo]

theorem stepsTo_eq_zero_iff {id target : Nat} (hid : isManaged id = true)
    (ht : isManaged target = true) : stepsTo id target = 0 ↔ id = target := by
  rw [isManaged_iff] at hid ht
  unfold stepsTo lastManagedId at *
  omega

/-- The way to an id that is not further than the target leads on to the target. -/
theorem stepsTo_add {id mid target : Nat} (hid : isManaged id = true) (hm : isManaged mid = true)
    (ht : isManaged target = true) (h : stepsTo id mid ≤ stepsTo id target) :
    stepsTo id mid + stepsTo mid target = stepsTo id target := by
  rw [isManaged_iff] at hid hm ht
  unfold stepsTo lastManagedId at *
  omega

/-- The way from an id that is not nearer to the target leads over the nearer ones. -/
theorem stepsTo_add_of_nearer {id mid target : Nat} (hid : isManaged id = true)
    (hm : isManaged mid = true) (ht : isManaged target = true)
    (h : stepsTo mid target ≤ stepsTo id target) :
    stepsTo id mid + stepsTo mid target = stepsTo id target := by
  rw [isManaged_iff] at hid hm ht
  unfold stepsTo lastManagedId at *
  omega

/-- The managed id that is some steps before another. -/
def back (id steps : Nat) : Nat := (id + lastManagedId - 1 - steps) % lastManagedId + 1

theorem isManaged_back (id steps : Nat) : isManaged (back id steps) = true := by
  rw [isManaged_iff, back, lastManagedId]
  omega

theorem stepsTo_back {id steps : Nat} (hid : isManaged id = true) (h : steps < lastManagedId) :
    stepsTo (back id steps) id = steps := by
  rw [isManaged_iff] at hid
  unfold stepsTo back lastManagedId at *
  omega

theorem back_stepsTo {id target : Nat} (hid : isManaged id = true) (ht : isManaged target = true) :
    back target (stepsTo id target) = id := by
  rw [isManaged_iff] at hid ht
  unfold stepsTo back lastManagedId at *
  omega

/-! ### First free ids -/

/-- An id that is free, while the ids from the preferred one up to it are not. -/
structure FirstFree (taken : List Nat) (preferred id : Nat) : Prop where
  managed : isManaged id = true
  free : id ∉ taken
  first : ∀ other, isManaged other = true → stepsTo preferred other < stepsTo preferred id →
    other ∈ taken

theorem freeId?_go_first {used : Std.HashSet Nat} {fuel id free other : Nat}
    (hid : isManaged id = true) (h : freeId?.go used fuel id = some free)
    (ho : isManaged other = true) (hlt : stepsTo id other < stepsTo id free) : other ∈ used := by
  induction fuel generalizing id with
  | zero => contradiction
  | succ fuel ih =>
    obtain ⟨hfree, hnot⟩ := freeId?_go_some hid h
    rw [freeId?.go] at h
    split at h
    · next hu =>
      by_cases heq : other = id
      · subst heq
        simpa using hu
      · have hne : free ≠ id := fun he => hnot (he ▸ by simpa using hu)
        have hother := stepsTo_nextId hid ho heq
        have hnext := stepsTo_nextId hid hfree hne
        exact ih (isManaged_nextId id) h (by omega)
    · cases h
      simp at hlt

/-- The id that is found is the first free one. -/
theorem firstFree_of_freeId? {used : Std.HashSet Nat} {taken : List Nat} {preferred id : Nat}
    (hsame : ∀ id, id ∈ used ↔ id ∈ taken) (hp : isManaged preferred = true)
    (h : freeId? used preferred = some id) : FirstFree taken preferred id where
  managed := (freeId?_eq_some hp h).1
  free hid := (freeId?_eq_some hp h).2 ((hsame id).2 hid)
  first _ ho hlt := (hsame _).1 (freeId?_go_first hp h ho hlt)

/-- The first free id is the preferred one unless that is taken. -/
theorem FirstFree.eq_preferred {taken : List Nat} {preferred id : Nat} (h : FirstFree taken preferred id)
    (hp : isManaged preferred = true) (hfree : preferred ∉ taken) : id = preferred := by
  rcases Nat.eq_zero_or_pos (stepsTo preferred id) with hzero | hpos
  · exact ((stepsTo_eq_zero_iff hp h.managed).1 hzero).symm
  · exact absurd (h.first preferred hp (by simpa using hpos)) hfree

/-! ### Demand -/

/-- How often an id, or one of some number of ids before it, is in a list. -/
def demand (ids : List Nat) (id room : Nat) : Nat := ids.countP fun a => stepsTo a id ≤ room

theorem demand_map_le {α : Type} {xs : List α} {f g : α → Nat} {id room : Nat}
    (h : ∀ x ∈ xs, stepsTo (f x) id ≤ room → stepsTo (g x) id ≤ room) :
    demand (xs.map f) id room ≤ demand (xs.map g) id room := by
  simp only [demand, List.countP_map, Function.comp_def]
  exact List.countP_mono_left fun x hx hle => decide_eq_true (h x hx (of_decide_eq_true hle))

/-- Different ids before an id are at most as many as there is room for. -/
theorem demand_le_of_nodup {ids : List Nat} {id : Nat} (hn : ids.Nodup)
    (hm : ∀ a ∈ ids, isManaged a = true) (hid : isManaged id = true) (hnot : id ∉ ids) (room : Nat) :
    demand ids id room ≤ room := by
  -- an id can be told from its distance, which is not 0
  have hsub : ids.filter (stepsTo · id ≤ room) ⊆ (List.range room).map fun i => back id (i + 1) := by
    intro a hmem
    obtain ⟨ha, hle⟩ := List.mem_filter.1 hmem
    have hle : stepsTo a id ≤ room := of_decide_eq_true hle
    have hpos : stepsTo a id ≠ 0 := fun h0 =>
      hnot ((stepsTo_eq_zero_iff (hm a ha) hid).1 h0 ▸ ha)
    refine List.mem_map.2 ⟨stepsTo a id - 1, List.mem_range.2 (by omega), ?_⟩
    rw [Nat.sub_add_cancel (Nat.pos_of_ne_zero hpos), back_stepsTo (hm a ha) hid]
  have hlength := (hn.sublist List.filter_sublist).length_le_of_subset hsub
  rwa [List.length_map, List.length_range, ← List.countP_eq_length_filter] at hlength

/-- A run of ids that ends with an id is longer than the room before the id. -/
theorem lt_demand_of_run {ids : List Nat} {id room : Nat} (hid : isManaged id = true)
    (hroom : room < lastManagedId) (hrun : ∀ steps ≤ room, back id steps ∈ ids) :
    room < demand ids id room := by
  have hback : ∀ steps ∈ List.range (room + 1), stepsTo (back id steps) id = steps := fun steps hs =>
    stepsTo_back hid (Nat.lt_of_lt_of_le (List.mem_range.1 hs) hroom)
  have hn : ((List.range (room + 1)).map (back id)).Nodup := by
    refine List.pairwise_map.2 (List.nodup_range.imp_of_mem fun {i j} hi hj hne heq => hne ?_)
    rw [← hback i hi, heq, hback j hj]
  have hsub : (List.range (room + 1)).map (back id) ⊆ ids.filter (stepsTo · id ≤ room) := by
    intro a ha
    obtain ⟨steps, hs, rfl⟩ := List.mem_map.1 ha
    have hle : steps ≤ room := Nat.le_of_lt_succ (List.mem_range.1 hs)
    exact List.mem_filter.2 ⟨hrun steps hle, decide_eq_true (by rwa [hback steps hs])⟩
  have hlength := hn.length_le_of_subset hsub
  rwa [List.length_map, List.length_range, ← List.countP_eq_length_filter] at hlength

/-- Backwards from an id in use there is a gap within some steps, or so far all ids are in use. -/
theorem run_or_gap {inUse : List Nat} {id : Nat} (hmem : back id 0 ∈ inUse) (bound : Nat) :
    (∀ steps ≤ bound, back id steps ∈ inUse) ∨
      ∃ room < bound, (∀ steps ≤ room, back id steps ∈ inUse) ∧ back id (room + 1) ∉ inUse := by
  induction bound with
  | zero =>
    refine .inl fun steps hs => ?_
    rwa [Nat.le_zero.1 hs]
  | succ bound ih =>
    rcases ih with hrun | ⟨room, hroom, hrun, hgap⟩
    · by_cases hnext : back id (bound + 1) ∈ inUse
      · refine .inl fun steps hs => ?_
        rcases Nat.le_succ_iff.1 hs with hs | rfl
        · exact hrun steps hs
        · exact hnext
      · exact .inr ⟨bound, Nat.lt_succ_self bound, hrun, hnext⟩
    · exact .inr ⟨room, Nat.lt_succ_of_lt hroom, hrun, hgap⟩

/-! ### Ids in use -/

/-- An id that was asked for, and the id that was given for it. -/
structure Grant where
  asked : Nat
  given : Nat

/-- What holds of ids that were given out by probing: whatever lies between an id that was asked for and
the one that was given is in use. -/
structure Probed (gs : List Grant) : Prop where
  asked : ∀ g ∈ gs, isManaged g.asked = true
  given : ∀ g ∈ gs, isManaged g.given = true
  distinct : (gs.map (·.given)).Nodup
  passed : ∀ g ∈ gs, ∀ id, isManaged id = true → stepsTo g.asked id < stepsTo g.asked g.given →
    id ∈ gs.map (·.given)

namespace Probed

variable {gs : List Grant} {id room : Nat}

/-- An id asked for before one that is not in use was granted before that one. -/
theorem given_le_of_not_mem (h : Probed gs) (hid : isManaged id = true)
    (hfree : id ∉ gs.map (·.given)) {g : Grant} (hg : g ∈ gs) (hle : stepsTo g.asked id ≤ room) :
    stepsTo g.given id ≤ room := by
  have hnear : stepsTo g.asked g.given ≤ stepsTo g.asked id :=
    Nat.le_of_not_lt fun hlt => hfree (h.passed g hg id hid hlt)
  have hadd := stepsTo_add (h.asked g hg) (h.given g hg) hid hnear
  omega

/-- An id granted behind a gap was asked for behind the gap. -/
theorem asked_le_of_gap (h : Probed gs) (hid : isManaged id = true)
    (hgap : back id (room + 1) ∉ gs.map (·.given)) {g : Grant} (hg : g ∈ gs)
    (hle : stepsTo g.given id ≤ room) : stepsTo g.asked id ≤ room := by
  refine Nat.le_of_not_lt fun hlt => hgap (h.passed g hg _ (isManaged_back _ _) ?_)
  have hback : stepsTo (back id (room + 1)) id = room + 1 :=
    stepsTo_back hid (Nat.lt_of_le_of_lt hlt (stepsTo_lt g.asked id))
  have hover := stepsTo_add_of_nearer (h.asked g hg) (isManaged_back id (room + 1)) hid (by omega)
  have hinto := stepsTo_add_of_nearer (h.asked g hg) (h.given g hg) hid (by omega)
  omega

/-- What was asked for just before an id that is not in use fits there. -/
theorem demand_le_of_not_mem (h : Probed gs) (hid : isManaged id = true)
    (hfree : id ∉ gs.map (·.given)) (room : Nat) : demand (gs.map (·.asked)) id room ≤ room := by
  have hmanaged : ∀ a ∈ gs.map (·.given), isManaged a = true := by
    intro a ha
    obtain ⟨g, hg, rfl⟩ := List.mem_map.1 ha
    exact h.given g hg
  calc demand (gs.map (·.asked)) id room
      ≤ demand (gs.map (·.given)) id room :=
        demand_map_le fun _ hg => h.given_le_of_not_mem hid hfree hg
    _ ≤ room := demand_le_of_nodup h.distinct hmanaged hid hfree room

/-- The run of ids in use that ends with an id was asked for as often as it is long. -/
theorem exists_demand_of_mem (h : Probed gs) (hid : isManaged id = true)
    (hmem : id ∈ gs.map (·.given)) :
    ∃ room < lastManagedId, room < demand (gs.map (·.asked)) id room := by
  have hzero : back id 0 = id := by simpa using back_stepsTo hid hid
  -- the run goes back to the nearest gap; without a gap it is all of the ids
  obtain ⟨room, hroom, hrun, hasked⟩ : ∃ room < lastManagedId,
      (∀ steps ≤ room, back id steps ∈ gs.map (·.given)) ∧
      ∀ g ∈ gs, stepsTo g.given id ≤ room → stepsTo g.asked id ≤ room := by
    rcases run_or_gap (hzero.symm ▸ hmem) (lastManagedId - 1) with hrun | ⟨room, hlt, hrun, hgap⟩
    · exact ⟨lastManagedId - 1, by decide, hrun, fun g _ _ => Nat.le_pred_of_lt (stepsTo_lt _ _)⟩
    · exact ⟨room, by omega, hrun, fun g hg => h.asked_le_of_gap hid hgap hg⟩
  refine ⟨room, hroom, ?_⟩
  calc room
      < demand (gs.map (·.given)) id room := lt_demand_of_run hid hroom hrun
    _ ≤ demand (gs.map (·.asked)) id room := demand_map_le hasked

end Probed
end MockRedirect.Plan
