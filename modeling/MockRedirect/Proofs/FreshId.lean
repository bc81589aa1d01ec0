import MockRedirect.Mock.Id
import Mathlib.Data.Finset.Card
import Mathlib.Data.Nat.Find
import Mathlib.Logic.Function.Iterate
/-! The search for a free id: it goes from the id drawn on around all ids, and if it ever comes to one
that is not taken, that one is found. It passes each taken id at most once, and it finds the first free one in
the order in which it goes around. -/
namespace MockRedirect.MockId

variable {id drawn other out out' : MockId} {taken : List MockId} {m n fuel : Nat}

/-! ### The order of the ids -/

theorem inRange_next (id : MockId) : id.next.InRange := by
  unfold next InRange highest
  constructor <;> dsimp only <;> omega

theorem inRange_ofSeed (seed : Int) : (ofSeed seed).InRange := by
  unfold ofSeed InRange highest
  constructor <;> dsimp only <;> omega

theorem inRange_iterate (h : id.InRange) (n : Nat) : (next^[n] id).InRange := by
  cases n with
  | zero => exact h
  | succ n =>
    rw [Function.iterate_succ_apply']
    exact inRange_next _

/-- The ids are passed in the order of their numbers, and the lowest one comes behind the highest. -/
theorem value_iterate (h : id.InRange) (n : Nat) : (next^[n] id).value = (id.value - 1 + n) % highest + 1 := by
  induction n with
  | zero =>
    obtain ⟨h1, h2⟩ := h
    unfold highest at *
    rw [Function.iterate_zero_apply]
    omega
  | succ n ih =>
    rw [Function.iterate_succ_apply', next, ih]
    unfold highest
    dsimp only
    omega

/-- How many steps lead from one id to another. -/
def stepsTo (id other : MockId) : Nat := ((other.value - id.value) % highest).toNat

theorem stepsTo_lt (id other : MockId) : stepsTo id other < highest := by
  unfold stepsTo highest
  omega

theorem iterate_stepsTo (h : id.InRange) (ho : other.InRange) : next^[stepsTo id other] id = other := by
  refine congrArg MockId.mk ((value_iterate h _).trans ?_)
  obtain ⟨h1, h2⟩ := h
  obtain ⟨ho1, ho2⟩ := ho
  unfold stepsTo highest at *
  omega

/-- Before the search has gone around once, each step leads one further on. -/
theorem stepsTo_iterate (h : id.InRange) (hn : n < highest) : stepsTo id (next^[n] id) = n := by
  rw [stepsTo, value_iterate h]
  obtain ⟨h1, h2⟩ := h
  unfold highest at *
  omega

/-- From any id all others come up. -/
theorem exists_iterate_eq {id other : MockId} (h : id.InRange) (ho : other.InRange) :
    ∃ n, next^[n] id = other :=
  ⟨stepsTo id other, iterate_stepsTo h ho⟩

/-! ### The search -/

/-- The search comes to an id that is not taken. -/
def Ends (drawn : MockId) (taken : List MockId) : Prop := ∃ n, next^[n] drawn ∉ taken

/-- The search goes on for ever only if there is no free id at all. -/
theorem ends_iff (h : drawn.InRange) : Ends drawn taken ↔ ∃ id : MockId, id.InRange ∧ id ∉ taken := by
  constructor
  · rintro ⟨n, hn⟩
    exact ⟨_, inRange_iterate h n, hn⟩
  · rintro ⟨id, hid, hfree⟩
    obtain ⟨n, rfl⟩ := exists_iterate_eq h hid
    exact ⟨n, hfree⟩

theorem go_eq_iterate (hbefore : ∀ i < n, next^[i] id ∈ taken) (hn : next^[n] id ∉ taken)
    (hfuel : n ≤ fuel) : fresh.go taken fuel id = next^[n] id := by
  induction n generalizing fuel id with
  | zero =>
    cases fuel with
    | zero => rfl
    | succ fuel =>
      have hid : ¬taken.contains id = true := fun hmem => hn (List.contains_iff_mem.1 hmem)
      rw [fresh.go, if_neg hid]
      rfl
  | succ n ih =>
    cases fuel with
    | zero => omega
    | succ fuel =>
      have hid : taken.contains id = true := List.contains_iff_mem.2 (hbefore 0 (by omega))
      rw [fresh.go, if_pos hid]
      exact ih (fun i hi => hbefore (i + 1) (by omega)) hn (by omega)

/-- The ids passed on the way to a free one are different, or the search would have ended before. -/
theorem nodup_passed (hbefore : ∀ i < n, next^[i] id ∈ taken) (hn : next^[n] id ∉ taken) :
    ((List.range n).map fun i => next^[i] id).Nodup := by
  refine List.pairwise_map.2 (List.pairwise_lt_range.imp_of_mem fun {i j} _ hj hlt heq => hn ?_)
  rw [List.mem_range] at hj
  have hskip : next^[n] id = next^[n - j + i] id := by
    rw [Function.iterate_add_apply, heq, ← Function.iterate_add_apply, Nat.sub_add_cancel (Nat.le_of_lt hj)]
  rw [hskip]
  exact hbefore _ (by omega)

/-- What is found is the first id in the order that is not taken. -/
theorem fresh_eq_iterate (h : Ends drawn taken) :
    ∃ n, fresh drawn taken = next^[n] drawn ∧ next^[n] drawn ∉ taken ∧
      ∀ i < n, next^[i] drawn ∈ taken := by
  have hbefore : ∀ i < Nat.find h, next^[i] drawn ∈ taken := fun i hi =>
    not_not.1 (Nat.find_min h hi)
  have hsub : (List.range (Nat.find h)).map (fun i => next^[i] drawn) ⊆ taken := by
    intro id hid
    obtain ⟨i, hi, rfl⟩ := List.mem_map.1 hid
    exact hbefore i (List.mem_range.1 hi)
  -- as the ids passed are different, there are no more of them than are taken
  have hlength := (nodup_passed hbefore (Nat.find_spec h)).length_le_of_subset hsub
  rw [List.length_map, List.length_range] at hlength
  exact ⟨Nat.find h, go_eq_iterate hbefore (Nat.find_spec h) hlength, Nat.find_spec h, hbefore⟩

theorem fresh_notMem (h : Ends drawn taken) : fresh drawn taken ∉ taken := by
  obtain ⟨n, heq, hfree, -⟩ := fresh_eq_iterate h
  rwa [heq]

theorem inRange_fresh (hd : drawn.InRange) (taken : List MockId) : (fresh drawn taken).InRange := by
  have hgo : ∀ fuel (id : MockId), id.InRange → (fresh.go taken fuel id).InRange := by
    intro fuel
    induction fuel with
    | zero => exact fun id hid => hid
    | succ fuel ih =>
      intro id hid
      rw [fresh.go]
      split
      · exact ih _ (inRange_next id)
      · exact hid
  exact hgo _ _ hd

/-! ### The search step by step -/

/-- The search without a limit: a taken id is passed over, any other is the one that is found. The number counts
the ids passed. -/
inductive Search (taken : List MockId) : MockId → Nat → MockId → Prop
  | found {id : MockId} (h : id ∉ taken) : Search taken id 0 id
  | pass {id out : MockId} {n : Nat} (h : id ∈ taken) (rest : Search taken id.next n out) :
      Search taken id (n + 1) out

/-- There is only one way to go on. -/
theorem Search.unique (h : Search taken id n out) (h' : Search taken id m out') : m = n ∧ out' = out := by
  induction h generalizing m with
  | found hfree =>
    cases h' with
    | found _ => exact ⟨rfl, rfl⟩
    | pass htaken _ => exact absurd htaken hfree
  | pass htaken _ ih =>
    cases h' with
    | found hfree => exact absurd htaken hfree
    | pass _ rest =>
      obtain ⟨rfl, rfl⟩ := ih rest
      exact ⟨rfl, rfl⟩

theorem search_iterate (hbefore : ∀ i < n, next^[i] id ∈ taken) (hn : next^[n] id ∉ taken) :
    Search taken id n (next^[n] id) := by
  induction n generalizing id with
  | zero => exact .found hn
  | succ n ih => exact .pass (hbefore 0 (by omega)) (ih (fun i hi => hbefore (i + 1) (by omega)) hn)

/-- No more ids are passed than are taken in range. -/
theorem le_card_of_passed (h : id.InRange) (hbefore : ∀ i < n, next^[i] id ∈ taken) (hn : next^[n] id ∉ taken) :
    n ≤ (taken.toFinset.filter InRange).card := by
  have hsub : ((List.range n).map fun i => next^[i] id).toFinset ⊆ taken.toFinset.filter InRange := by
    intro other hother
    obtain ⟨i, hi, rfl⟩ := List.mem_map.1 (List.mem_toFinset.1 hother)
    exact Finset.mem_filter.2 ⟨List.mem_toFinset.2 (hbefore i (List.mem_range.1 hi)), inRange_iterate h i⟩
  have hcard := Finset.card_le_card hsub
  rwa [List.toFinset_card_of_nodup (nodup_passed hbefore hn), List.length_map, List.length_range] at hcard

/-- An id that is free, and as near behind another one as any free id. -/
structure FirstFree (taken : List MockId) (id first : MockId) : Prop where
  inRange : first.InRange
  free : first ∉ taken
  nearest : ∀ other : MockId, other.InRange → other ∉ taken → stepsTo id first ≤ stepsTo id other

theorem stepsTo_of_passed (h : id.InRange) (hbefore : ∀ i < n, next^[i] id ∈ taken) (ho : other.InRange)
    (hfree : other ∉ taken) : n ≤ stepsTo id other := by
  by_contra hlt
  have htaken := hbefore (stepsTo id other) (by omega)
  rw [iterate_stepsTo h ho] at htaken
  exact hfree htaken

/-- Whatever is drawn, the search for a free id ends if there is one: it passes no more ids than are taken in range,
and what it finds is the first free one behind the id drawn. -/
theorem search_fresh (seed : Int) (hfree : ∃ id : MockId, id.InRange ∧ id ∉ taken) :
    ∃ n, Search taken (ofSeed seed) n ((ofSeed seed).fresh taken) ∧
      (∀ m out, Search taken (ofSeed seed) m out → m = n ∧ out = (ofSeed seed).fresh taken) ∧
      n ≤ (taken.toFinset.filter InRange).card ∧ n = (ofSeed seed).stepsTo ((ofSeed seed).fresh taken) ∧
      FirstFree taken (ofSeed seed) ((ofSeed seed).fresh taken) := by
  have hdrawn := inRange_ofSeed seed
  obtain ⟨n, heq, hn, hbefore⟩ := fresh_eq_iterate ((ends_iff hdrawn).2 hfree)
  have hnearest : ∀ other : MockId, other.InRange → other ∉ taken → n ≤ (ofSeed seed).stepsTo other :=
    fun other ho hother => stepsTo_of_passed hdrawn hbefore ho hother
  have hsearch : Search taken (ofSeed seed) n ((ofSeed seed).fresh taken) := heq ▸ search_iterate hbefore hn
  have hsteps : (ofSeed seed).stepsTo ((ofSeed seed).fresh taken) = n := by
    obtain ⟨other, ho, hother⟩ := hfree
    rw [heq]
    exact stepsTo_iterate hdrawn ((hnearest other ho hother).trans_lt (stepsTo_lt _ _))
  refine ⟨n, hsearch, fun m out h => hsearch.unique h, le_card_of_passed hdrawn hbefore hn, hsteps.symm, ?_, ?_, ?_⟩
  · exact inRange_fresh hdrawn taken
  · rwa [heq]
  · rwa [hsteps]

/-- Ids that are taken on both sides of the end of the range, and some that are out of range. -/
def crowded : List MockId := [⟨2147483647⟩, ⟨0⟩, ⟨1⟩, ⟨2147483646⟩, ⟨-3⟩]

theorem search_fresh_crowded : (∃ id : MockId, id.InRange ∧ id ∉ crowded) ∧
    (ofSeed 2147483646).fresh crowded = ⟨2⟩ ∧ Search crowded (ofSeed 2147483646) 3 ⟨2⟩ ∧
    FirstFree crowded (ofSeed 2147483646) ⟨2⟩ ∧ (crowded.toFinset.filter InRange).card = 3 := by
  have hfree : ∃ id : MockId, id.InRange ∧ id ∉ crowded := ⟨⟨2⟩, by decide, by decide⟩
  obtain ⟨n, hsearch, -, -, hsteps, hfirst⟩ := search_fresh 2147483646 hfree
  have hfound : (ofSeed 2147483646).fresh crowded = ⟨2⟩ := by decide +kernel
  rw [hfound] at hsearch hsteps hfirst
  obtain rfl : n = 3 := hsteps
  exact ⟨hfree, hfound, hsearch, hfirst, by decide +kernel⟩

end MockRedirect.MockId
