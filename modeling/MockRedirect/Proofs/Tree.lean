import MockRedirect.Json.Basic
/-! What holds of every part of a tree: of the keys of each of its objects, and of each scalar. -/
namespace MockRedirect

/-! ### Members -/

namespace Members

variable {key : String} {value v : Json} {ms new : Members}

theorem mem_of_get? (h : get? key ms = some v) : (key, v) ∈ ms := by
  induction ms with
  | nil => contradiction
  | cons m ms ih =>
    obtain ⟨k, w⟩ := m
    by_cases hk : k = key
    · obtain rfl : w = v := by simpa [get?, hk] using h
      simp [hk]
    · rw [get?, if_neg hk] at h
      exact List.mem_cons_of_mem _ (ih h)

theorem keys_put_of_notMem (h : key ∉ keys ms) (value : Json) :
    keys (put key value ms) = keys ms ++ [key] := by
  induction ms with
  | nil => rfl
  | cons m ms ih =>
    rw [keys, List.map_cons, List.mem_cons, not_or] at h
    rw [put, if_neg (Ne.symm h.1), keys, List.map_cons, ← keys, ih h.2]
    rfl

theorem nodup_keys_put (h : (keys ms).Nodup) (key : String) (value : Json) :
    (keys (put key value ms)).Nodup := by
  by_cases hk : key ∈ keys ms
  · rwa [keys_put_of_mem hk]
  · rw [keys_put_of_notMem hk, List.nodup_append]
    refine ⟨h, by simp, ?_⟩
    simp only [List.mem_singleton, forall_eq]
    exact fun a ha hak => hk (hak ▸ ha)

/-- Putting a value in leaves all other members as they are. -/
theorem mem_put {m : String × Json} (h : m ∈ put key value ms) : m = (key, value) ∨ m ∈ ms := by
  induction ms with
  | nil => exact Or.inl (List.mem_singleton.1 h)
  | cons n ms ih =>
    obtain ⟨k, w⟩ := n
    by_cases hk : k = key
    · rw [put, if_pos hk, hk, List.mem_cons] at h
      exact h.imp_right (List.mem_cons_of_mem _)
    · rw [put, if_neg hk, List.mem_cons] at h
      obtain rfl | h := h
      · exact Or.inr List.mem_cons_self
      · exact (ih h).imp_right (List.mem_cons_of_mem _)

/-- Of two values under one key the last is left. -/
theorem put_put (key : String) (v w : Json) (ms : Members) : put key w (put key v ms) = put key w ms := by
  induction ms with
  | nil => simp [put]
  | cons m ms ih =>
    obtain ⟨k, u⟩ := m
    by_cases h : k = key
    · simp [put, h]
    · simp [put, h, ih]

/-- Putting in what is there already changes nothing. -/
theorem put_of_get? (h : get? key ms = some value) : put key value ms = ms := by
  induction ms with
  | nil => contradiction
  | cons m ms ih =>
    obtain ⟨k, v⟩ := m
    rw [get?] at h
    rw [put]
    split at h
    · next hk =>
      cases h
      rw [if_pos hk, hk]
    · next hk => rw [if_neg hk, ih h]

theorem put_of_notMem (h : key ∉ keys ms) (value : Json) : put key value ms = ms ++ [(key, value)] := by
  induction ms with
  | nil => rfl
  | cons m ms ih =>
    rw [keys, List.map_cons, List.mem_cons, not_or] at h
    rw [put, if_neg (Ne.symm h.1), ih h.2, List.cons_append]

/-- Members with different keys are put in as they stand. -/
theorem putAll_of_nodup (h : (keys (ms ++ new)).Nodup) : putAll ms new = ms ++ new := by
  induction new generalizing ms with
  | nil => simp [putAll]
  | cons m new ih =>
    obtain ⟨k, v⟩ := m
    have hk : k ∉ keys ms := by
      rw [keys, List.map_append, List.nodup_append] at h
      exact fun hmem => h.2.2 k hmem k (by simp) rfl
    have hput : put k v ms = ms ++ [(k, v)] := put_of_notMem hk v
    have hassoc : ms ++ (k, v) :: new = put k v ms ++ new := by simp [hput]
    rw [hassoc] at h ⊢
    exact ih h

theorem nodup_keys_putAll (h : (keys ms).Nodup) (new : Members) : (keys (putAll ms new)).Nodup := by
  induction new generalizing ms with
  | nil => exact h
  | cons m new ih => exact ih (nodup_keys_put h m.1 m.2)

theorem get?_putAll_of_mem (hn : (keys new).Nodup) (h : (key, v) ∈ new) :
    get? key (putAll ms new) = some v := by
  induction new generalizing ms with
  | nil => contradiction
  | cons m new ih =>
    rw [keys, List.map_cons, List.nodup_cons] at hn
    obtain rfl | h := List.mem_cons.1 h
    · exact (get?_putAll_of_notMem hn.1 _).trans ((get?_put ..).trans (if_pos rfl))
    · exact ih hn.2 h

theorem get?_of_mem (hn : (keys ms).Nodup) (h : (key, v) ∈ ms) : get? key ms = some v := by
  have hput : putAll [] ms = ms := putAll_of_nodup hn
  rw [← hput]
  exact get?_putAll_of_mem hn h

theorem mem_putAll {m : String × Json} (h : m ∈ putAll ms new) : m ∈ ms ∨ m ∈ new := by
  induction new generalizing ms with
  | nil => exact Or.inl h
  | cons n new ih =>
    obtain hput | hnew := ih h
    · obtain rfl | hms := mem_put hput
      · exact Or.inr List.mem_cons_self
      · exact Or.inl hms
    · exact Or.inr (List.mem_cons_of_mem _ hnew)

end Members

/-! ### Trees -/

namespace Json

/-- Neither an array nor an object. -/
def IsScalar : Json → Prop
  | .arr _ => False
  | .obj _ => False
  | _ => True

/-- What holds of the scalars and passes from the parts of a container to the container holds of
every tree. -/
@[elab_as_elim]
theorem induct {motive : Json → Prop} (scalar : ∀ v : Json, v.IsScalar → motive v)
    (arr : ∀ xs, (∀ x ∈ xs, motive x) → motive (.arr xs))
    (obj : ∀ ms : Members, (∀ m ∈ ms, motive m.2) → motive (.obj ms)) (v : Json) : motive v :=
  match v with
  | .null => scalar _ trivial
  | .bool _ => scalar _ trivial
  | .int _ => scalar _ trivial
  | .float _ => scalar _ trivial
  | .str _ => scalar _ trivial
  | .arr xs => arr xs fun x _ => induct scalar arr obj x
  | .obj ms => obj ms fun m _ => induct scalar arr obj m.2
termination_by sizeOf v
decreasing_by
  · have := List.sizeOf_lt_of_mem ‹_›
    simp only [Json.arr.sizeOf_spec]
    omega
  · have := List.sizeOf_lt_of_mem ‹_›
    obtain ⟨k, w⟩ := m
    simp only [Json.obj.sizeOf_spec, Prod.mk.sizeOf_spec] at *
    omega

/-- The keys of every object satisfy `keys`, and every scalar satisfies `leaf`. -/
inductive Every (keys : List String → Prop) (leaf : Json → Prop) : Json → Prop
  | scalar {v : Json} (hv : v.IsScalar) (hl : leaf v) : Every keys leaf v
  | arr {xs : List Json} (hx : ∀ x ∈ xs, Every keys leaf x) : Every keys leaf (.arr xs)
  | obj {ms : Members} (hk : keys (Members.keys ms)) (hm : ∀ m ∈ ms, Every keys leaf m.2) :
    Every keys leaf (.obj ms)

/-- No object repeats a key, and every scalar satisfies `leaf`. -/
abbrev Tidy (leaf : Json → Prop) : Json → Prop := Every List.Nodup leaf

variable {keys : List String → Prop} {leaf : Json → Prop} {v : Json} {xs : List Json} {ms : Members}

theorem every_arr : Every keys leaf (.arr xs) ↔ ∀ x ∈ xs, Every keys leaf x :=
  ⟨fun h => by cases h with
    | scalar hv _ => exact hv.elim
    | arr hx => exact hx, .arr⟩

theorem every_obj : Every keys leaf (.obj ms) ↔
    keys (Members.keys ms) ∧ ∀ m ∈ ms, Every keys leaf m.2 :=
  ⟨fun h => by cases h with
    | scalar hv _ => exact hv.elim
    | obj hk hm => exact ⟨hk, hm⟩, fun h => .obj h.1 h.2⟩

/-- An element of an array, or the value of a member of an object. -/
def IsPart (u : Json) : Json → Prop
  | .arr xs => u ∈ xs
  | .obj ms => ∃ key, (key, u) ∈ ms
  | _ => False

theorem Every.of_isPart {u : Json} (h : Every keys leaf v) (hu : u.IsPart v) : Every keys leaf u := by
  cases h with
  | scalar hv _ => cases v <;> first | exact hu.elim | exact hv.elim
  | arr hx => exact hx u hu
  | obj _ hm =>
    obtain ⟨key, hmem⟩ := hu
    exact hm _ hmem

theorem tidy_arr : (Json.arr xs).Tidy leaf ↔ ∀ x ∈ xs, x.Tidy leaf := every_arr

theorem tidy_obj : (Json.obj ms).Tidy leaf ↔ (Members.keys ms).Nodup ∧ ∀ m ∈ ms, m.2.Tidy leaf :=
  every_obj

theorem every_scalar (hv : v.IsScalar) : Every keys leaf v ↔ leaf v :=
  ⟨fun h => by cases h with
    | scalar _ hl => exact hl
    | arr _ => exact hv.elim
    | obj _ _ => exact hv.elim, .scalar hv⟩

theorem Every.imp {keys' : List String → Prop} {leaf' : Json → Prop} (h : Every keys leaf v)
    (hk : ∀ ks, keys ks → keys' ks) (hl : ∀ v, leaf v → leaf' v) : Every keys' leaf' v := by
  induction h with
  | scalar hv hleaf => exact .scalar hv (hl _ hleaf)
  | arr _ ih => exact .arr ih
  | obj hks _ ih => exact .obj (hk _ hks) ih

theorem Every.and {keys' : List String → Prop} {leaf' : Json → Prop} (h : Every keys leaf v)
    (h' : Every keys' leaf' v) :
    Every (fun ks => keys ks ∧ keys' ks) (fun v => leaf v ∧ leaf' v) v := by
  induction h with
  | scalar hv hl => exact .scalar hv ⟨hl, (every_scalar hv).1 h'⟩
  | arr _ ih => exact .arr fun x hx => ih x hx (every_arr.1 h' x hx)
  | obj hk _ ih =>
    obtain ⟨hk', hm'⟩ := every_obj.1 h'
    exact .obj ⟨hk, hk'⟩ fun m hm => ih m hm (hm' m hm)

/-! ### Merging -/

theorem mergedItems_eq_map (xs : List Json) : mergedItems xs = xs.map merged := by
  induction xs with
  | nil => rfl
  | cons x xs ih => rw [mergedItems, ih, List.map_cons]

theorem mergedMembers_eq_map (ms : Members) : mergedMembers ms = ms.map fun m => (m.1, m.2.merged) := by
  induction ms with
  | nil => rfl
  | cons m ms ih => rw [mergedMembers, ih, List.map_cons]

theorem merged_of_isScalar (hv : v.IsScalar) : v.merged = v := by
  cases v with
  | arr | obj => exact hv.elim
  | _ => rfl

/-- A tree that repeats no key is merged already. -/
theorem Tidy.merged_eq (h : v.Tidy leaf) : v.merged = v := by
  induction h with
  | scalar hv _ => exact merged_of_isScalar hv
  | arr _ ih => rw [merged, mergedItems_eq_map, List.map_congr_left ih, List.map_id']
  | @obj ms hk _ ih =>
    have hms : ms.map (fun m => (m.1, m.2.merged)) = ms :=
      (List.map_congr_left fun m hm => by rw [ih m hm]).trans (List.map_id' ms)
    have hput : Members.putAll [] ms = ms := Members.putAll_of_nodup hk
    rw [merged, mergedMembers_eq_map, hms, hput]

/-- Merging leaves no repeated key, and no scalar that was not there. -/
theorem Every.merged (h : Every keys leaf v) : v.merged.Tidy leaf := by
  induction h with
  | scalar hv hl =>
    rw [merged_of_isScalar hv]
    exact .scalar hv hl
  | arr _ ih =>
    rw [Json.merged, mergedItems_eq_map, tidy_arr]
    simpa using ih
  | obj _ _ ih =>
    rw [Json.merged, mergedMembers_eq_map, tidy_obj]
    refine ⟨Members.nodup_keys_putAll (by simp [Members.keys]) _, fun m hm => ?_⟩
    obtain hnil | hmem := Members.mem_putAll hm
    · contradiction
    · obtain ⟨n, hn, rfl⟩ := List.mem_map.1 hmem
      exact ih n hn

theorem every_true (v : Json) : Every (fun _ => True) (fun _ => True) v := by
  induction v using induct with
  | scalar v hv => exact .scalar hv trivial
  | arr xs ih => exact .arr ih
  | obj ms ih => exact .obj trivial ih

/-! ### Pruning -/

theorem pruneItems_eq_map (drop : String → Bool) (xs : List Json) :
    pruneItems drop xs = xs.map (prune drop) := by
  induction xs with
  | nil => rfl
  | cons x xs ih => rw [pruneItems, ih, List.map_cons]

theorem pruneMembers_eq_map (drop : String → Bool) (ms : Members) :
    pruneMembers drop ms = (ms.filter (!drop ·.1)).map fun m => (m.1, m.2.prune drop) := by
  induction ms with
  | nil => rfl
  | cons m ms ih =>
    obtain ⟨k, v⟩ := m
    by_cases hk : drop k <;> simp [pruneMembers, hk, ih]

theorem prune_of_isScalar (hv : v.IsScalar) (drop : String → Bool) : v.prune drop = v := by
  cases v with
  | arr | obj => exact hv.elim
  | _ => rfl

theorem Tidy.prune (h : v.Tidy leaf) (drop : String → Bool) : (v.prune drop).Tidy leaf := by
  induction h with
  | @scalar v hv hl =>
    rw [prune_of_isScalar hv]
    exact .scalar hv hl
  | arr _ ih =>
    rw [Json.prune, pruneItems_eq_map, tidy_arr]
    simpa using ih
  | @obj ms hk _ ih =>
    have hkeys : Members.keys ((ms.filter (!drop ·.1)).map fun m => (m.1, m.2.prune drop)) =
        Members.keys (ms.filter (!drop ·.1)) := by
      simp [Members.keys]
    rw [Json.prune, pruneMembers_eq_map, tidy_obj, hkeys]
    refine ⟨hk.sublist (List.filter_sublist.map _), fun m hm => ?_⟩
    obtain ⟨n, hn, rfl⟩ := List.mem_map.1 hm
    exact ih n (List.mem_filter.1 hn).1

/-- The kept members among those that are put in. -/
theorem pruneMembers_putAll (drop : String → Bool) (ms new : Members) :
    pruneMembers drop (Members.putAll ms new) =
      Members.putAll (pruneMembers drop ms) (pruneMembers drop new) := by
  have hput (k : String) (v : Json) (ms : Members) : pruneMembers drop (Members.put k v ms) =
      if drop k then pruneMembers drop ms else Members.put k (v.prune drop) (pruneMembers drop ms) := by
    induction ms with
    | nil => rfl
    | cons m ms ih =>
      obtain ⟨a, b⟩ := m
      by_cases ha : a = k
      · subst ha
        by_cases hdrop : drop a <;> simp [Members.put, pruneMembers, hdrop]
      · rw [Members.put, if_neg ha, pruneMembers, pruneMembers, ih]
        by_cases hdrop : drop k <;> by_cases hdrop' : drop a <;> simp [Members.put, hdrop, hdrop', ha]
  induction new generalizing ms with
  | nil => rfl
  | cons m new ih =>
    obtain ⟨k, v⟩ := m
    have hcons : Members.putAll ms ((k, v) :: new) = Members.putAll (Members.put k v ms) new := rfl
    rw [hcons, ih, hput, pruneMembers]
    split
    · rfl
    · rfl

/-- Pruning and merging do not disturb each other. -/
theorem prune_merged (drop : String → Bool) (v : Json) : v.merged.prune drop = (v.prune drop).merged := by
  induction v using induct with
  | scalar v hv => rw [merged_of_isScalar hv, prune_of_isScalar hv, merged_of_isScalar hv]
  | arr xs ih =>
    rw [merged, prune, prune, merged, mergedItems_eq_map, pruneItems_eq_map, pruneItems_eq_map,
      mergedItems_eq_map, List.map_map, List.map_map]
    exact congrArg Json.arr (List.map_congr_left ih)
  | obj ms ih =>
    rw [merged, prune, prune, merged, pruneMembers_putAll, pruneMembers, pruneMembers_eq_map,
      pruneMembers_eq_map, mergedMembers_eq_map, mergedMembers_eq_map, List.filter_map, List.map_map,
      List.map_map]
    refine congrArg (Json.obj ∘ Members.putAll []) (List.map_congr_left fun m hm => ?_)
    exact congrArg (m.1, ·) (ih m (List.mem_filter.1 hm).1)

end Json
end MockRedirect
