import MockRedirect.Proofs.InPlace
import Mathlib.Data.List.Nodup
/-! The scalars of a tree with their paths. Each of them is listed once, and putting other scalars in their places
changes the values in the list and nothing else. -/
namespace MockRedirect

namespace Members

/-- A value under a key that is there replaces the one value under this key. -/
theorem put_eq_map {key : String} {ms : Members} (hn : (keys ms).Nodup) (hk : key ∈ keys ms) (value : Json) :
    put key value ms = ms.map fun m => if m.1 = key then (key, value) else m := by
  induction ms with
  | nil => contradiction
  | cons m ms ih =>
    obtain ⟨k, v⟩ := m
    rw [keys, List.map_cons, List.nodup_cons] at hn
    rw [put, List.map_cons]
    split
    · next h =>
      subst h
      have hrest : ms.map (fun m => if m.1 = k then (k, value) else m) = ms := by
        refine (List.map_congr_left fun m hm => if_neg ?_).trans (List.map_id' ms)
        rintro rfl
        exact hn.1 (List.mem_map.2 ⟨m, hm, rfl⟩)
      rw [hrest]
    · next h => rw [ih hn.2 ((List.mem_cons.1 hk).resolve_left (Ne.symm h))]

end Members

namespace Json

variable {leaf : Json → Prop} {s : Segment} {u u' v w root value : Json} {path p : FieldPath}

/-! ### Children -/

/-- The children of a tree, each with the segment that leads to it. -/
def parts : Json → List (Segment × Json)
  | .arr xs => xs.zipIdx.map fun x => (.index x.2, x.1)
  | .obj ms => ms.map fun m => (.key m.1, m.2)
  | _ => []

theorem isPart_of_mem_parts {e : Segment × Json} (h : e ∈ v.parts) : e.2.IsPart v := by
  cases v with
  | arr xs =>
    obtain ⟨x, hx, rfl⟩ := List.mem_map.1 h
    exact (List.mem_zipIdx hx).2.2 ▸ List.getElem_mem _
  | obj ms =>
    obtain ⟨m, hm, rfl⟩ := List.mem_map.1 h
    exact ⟨m.1, hm⟩
  | _ => contradiction

/-- What passes from the children of a tree to the tree holds of every tree. -/
@[elab_as_elim]
theorem induct_parts {motive : Json → Prop} (scalar : ∀ v : Json, v.IsScalar → motive v)
    (node : ∀ v : Json, ¬v.IsScalar → (∀ e ∈ v.parts, motive e.2) → motive v) (v : Json) : motive v := by
  induction v using induct with
  | scalar v hv => exact scalar v hv
  | arr xs ih => exact node _ id fun e he => ih _ (isPart_of_mem_parts he)
  | obj ms ih =>
    refine node _ id fun e he => ?_
    obtain ⟨key, hmem⟩ := isPart_of_mem_parts he
    exact ih _ hmem

theorem mem_parts_of_child? (h : v.child? s = some u) : (s, u) ∈ v.parts := by
  cases s with
  | key name =>
    cases v with
    | obj ms => exact List.mem_map.2 ⟨(name, u), Members.mem_of_get? h, rfl⟩
    | _ => contradiction
  | index i =>
    cases v with
    | arr xs => exact List.mem_map.2 ⟨(u, i), List.mem_zipIdx_iff_getElem?.2 h, rfl⟩
    | _ => contradiction

theorem child?_of_mem_parts (hv : v.Tidy leaf) (h : (s, u) ∈ v.parts) : v.child? s = some u := by
  cases v with
  | arr xs =>
    obtain ⟨x, hx, heq⟩ := List.mem_map.1 h
    cases heq
    exact List.mem_zipIdx_iff_getElem?.1 hx
  | obj ms =>
    obtain ⟨m, hm, heq⟩ := List.mem_map.1 h
    cases heq
    exact Members.get?_of_mem (tidy_obj.1 hv).1 hm
  | _ => contradiction

theorem Tidy.of_mem_parts (hv : v.Tidy leaf) {e : Segment × Json} (he : e ∈ v.parts) : e.2.Tidy leaf :=
  hv.child? (child?_of_mem_parts hv he)

theorem nodup_parts (hv : v.Tidy leaf) : (v.parts.map Prod.fst).Nodup := by
  cases v with
  | arr xs =>
    have hsegments : (Json.arr xs).parts.map Prod.fst = (List.range' 0 xs.length).map Segment.index := by
      rw [← List.zipIdx_map_snd, parts, List.map_map, List.map_map]
      rfl
    rw [hsegments]
    exact List.Nodup.map (fun i j h => Segment.index.inj h) List.nodup_range'
  | obj ms =>
    have hsegments : (Json.obj ms).parts.map Prod.fst = (Members.keys ms).map Segment.key := by
      rw [parts, Members.keys, List.map_map, List.map_map]
      rfl
    rw [hsegments]
    exact List.Nodup.map (fun k l h => Segment.key.inj h) (tidy_obj.1 hv).1
  | _ => exact List.nodup_nil

theorem child?_of_isScalar (hv : v.IsScalar) (s : Segment) : v.child? s = none := by
  cases v with
  | arr | obj => exact hv.elim
  | _ => cases s <;> rfl

/-- Another child in the place of one. -/
theorem parts_putChild? (hv : v.Tidy leaf) (hchild : v.child? s = some u) (hput : putChild? s u' v = some w) :
    w.parts = v.parts.map fun e => if e.1 = s then (s, u') else e := by
  obtain ⟨name, ms, rfl, rfl, rfl⟩ | ⟨i, xs, rfl, rfl, hi, rfl⟩ := putChild?_eq_some.1 hput
  · have hmem : name ∈ Members.keys ms := List.mem_map_of_mem (Members.mem_of_get? hchild)
    rw [parts, parts, Members.put_eq_map (tidy_obj.1 hv).1 hmem, List.map_map, List.map_map]
    refine List.map_congr_left fun m _ => ?_
    by_cases hm : m.1 = name <;> simp [hm]
  · rw [parts, parts, List.map_map]
    refine List.ext_getElem (by simp) fun j hj _ => ?_
    by_cases hij : i = j
    · subst hij
      simp
    · simp [List.getElem_set_ne hij, Ne.symm hij]

/-! ### Leaves -/

theorem leaves_of_isScalar (hv : v.IsScalar) (path : FieldPath) : v.leaves path = [(path, v)] := by
  cases v with
  | arr | obj => exact hv.elim
  | _ => rfl

theorem leavesOfItems_eq_flatMap (path : FieldPath) (i : Nat) (xs : List Json) :
    leavesOfItems path i xs = (xs.zipIdx i).flatMap fun x => x.1.leaves (path ++ [.index x.2]) := by
  induction xs generalizing i with
  | nil => rfl
  | cons x xs ih => rw [leavesOfItems, ih, List.zipIdx_cons, List.flatMap_cons]

theorem leavesOfMembers_eq_flatMap (path : FieldPath) (ms : Members) :
    leavesOfMembers path ms = ms.flatMap fun m => m.2.leaves (path ++ [.key m.1]) := by
  induction ms with
  | nil => rfl
  | cons m ms ih => rw [leavesOfMembers, ih, List.flatMap_cons]

theorem leaves_eq_flatMap (hv : ¬v.IsScalar) (path : FieldPath) :
    v.leaves path = v.parts.flatMap fun e => e.2.leaves (path ++ [e.1]) := by
  cases v with
  | arr xs => rw [leaves, leavesOfItems_eq_flatMap, parts, List.flatMap_map]
  | obj ms => rw [leaves, leavesOfMembers_eq_flatMap, parts, List.flatMap_map]
  | _ => exact absurd trivial hv

/-- A leaf further down. -/
abbrev deeper (path : FieldPath) (l : FieldPath × Json) : FieldPath × Json := (path ++ l.1, l.2)

theorem leaves_eq_map (path : FieldPath) (v : Json) : v.leaves path = (v.leaves []).map (deeper path) := by
  induction v using induct_parts generalizing path with
  | scalar v hv =>
    rw [leaves_of_isScalar hv, leaves_of_isScalar hv, List.map_singleton, deeper, List.append_nil]
  | node v hv ih =>
    rw [leaves_eq_flatMap hv, leaves_eq_flatMap hv, List.map_flatMap]
    refine List.flatMap_congr fun e he => ?_
    rw [ih e he (path ++ [e.1]), ih e he ([] ++ [e.1]), List.map_map]
    refine List.map_congr_left fun l _ => ?_
    simp [deeper]

theorem leaves_nil (hv : ¬v.IsScalar) :
    v.leaves [] = v.parts.flatMap fun e => (e.2.leaves []).map (deeper [e.1]) := by
  rw [leaves_eq_flatMap hv]
  exact List.flatMap_congr fun e _ => leaves_eq_map _ e.2

theorem mem_leaves_cons (hv : ¬v.IsScalar) : (s :: p, u) ∈ v.leaves [] ↔
    ∃ c, (s, c) ∈ v.parts ∧ (p, u) ∈ c.leaves [] := by
  rw [leaves_nil hv, List.mem_flatMap]
  constructor
  · rintro ⟨e, he, hmap⟩
    obtain ⟨⟨q, x⟩, hl, heq⟩ := List.mem_map.1 hmap
    obtain ⟨⟨rfl, rfl⟩, rfl⟩ : (e.1 = s ∧ q = p) ∧ x = u := by simpa [deeper] using heq
    exact ⟨e.2, he, hl⟩
  · rintro ⟨c, hc, hl⟩
    exact ⟨(s, c), hc, List.mem_map.2 ⟨_, hl, rfl⟩⟩

/-- The leaves are the scalars of the tree, each at its path. -/
theorem mem_leaves_iff (hv : v.Tidy leaf) : (p, u) ∈ v.leaves [] ↔ v.at? p = some u ∧ u.IsScalar := by
  induction p generalizing v with
  | nil =>
    by_cases hs : v.IsScalar
    · rw [leaves_of_isScalar hs, List.mem_singleton, at?, Option.some.injEq]
      constructor
      · rintro ⟨⟩
        exact ⟨rfl, hs⟩
      · rintro ⟨rfl, -⟩
        rfl
    · rw [leaves_nil hs, List.mem_flatMap]
      constructor
      · rintro ⟨e, -, hl⟩
        obtain ⟨l, -, heq⟩ := List.mem_map.1 hl
        cases heq
      · rintro ⟨⟨⟩, hu⟩
        exact absurd hu hs
  | cons s p ih =>
    by_cases hs : v.IsScalar
    · have hnone : v.child? s = none := child?_of_isScalar hs s
      rw [leaves_of_isScalar hs, at?, hnone, Option.bind_none]
      simp
    · rw [mem_leaves_cons hs, at?, Option.bind_eq_some_iff]
      constructor
      · rintro ⟨c, hc, hl⟩
        obtain ⟨hat, hu⟩ := (ih (hv.of_mem_parts hc)).1 hl
        exact ⟨⟨c, child?_of_mem_parts hv hc, hat⟩, hu⟩
      · rintro ⟨⟨c, hc, hat⟩, hu⟩
        exact ⟨c, mem_parts_of_child? hc, (ih (hv.child? hc)).2 ⟨hat, hu⟩⟩

/-- Each path is listed once. -/
theorem nodup_leaves (hv : v.Tidy leaf) : ((v.leaves []).map Prod.fst).Nodup := by
  induction v using induct_parts with
  | scalar v hs =>
    rw [leaves_of_isScalar hs]
    exact List.nodup_singleton _
  | node v hs ih =>
    rw [leaves_nil hs, List.map_flatMap, List.nodup_flatMap]
    constructor
    · intro e he
      rw [List.map_map]
      have hpaths : (e.2.leaves []).map (Prod.fst ∘ deeper [e.1]) =
          ((e.2.leaves []).map Prod.fst).map (e.1 :: ·) := by
        rw [List.map_map]
        rfl
      rw [hpaths]
      exact (ih e he (hv.of_mem_parts he)).map List.cons_injective
    · refine (List.pairwise_map.1 (nodup_parts hv)).imp fun {e e'} hne => ?_
      intro q hq hq'
      obtain ⟨l, hl, rfl⟩ := List.mem_map.1 hq
      obtain ⟨l', hl', heq⟩ := List.mem_map.1 hq'
      obtain ⟨m, -, rfl⟩ := List.mem_map.1 hl
      obtain ⟨m', -, rfl⟩ := List.mem_map.1 hl'
      exact hne (List.cons.inj heq).1.symm

/-! ### Other values in their places -/

theorem not_isScalar_of_putChild? (h : putChild? s u v = some w) : ¬v.IsScalar ∧ ¬w.IsScalar := by
  obtain ⟨name, ms, rfl, rfl, rfl⟩ | ⟨i, xs, rfl, rfl, hi, rfl⟩ := putChild?_eq_some.1 h
  · exact ⟨id, id⟩
  · exact ⟨id, id⟩

/-- A leaf, or what is listed in its place once its value is another. -/
def relisted (p : FieldPath) (u : Json) (l : FieldPath × Json) : List (FieldPath × Json) :=
  if l.1 = p then u.leaves p else [l]

theorem relisted_deeper (s : Segment) (p : FieldPath) (u : Json) (l : FieldPath × Json) :
    relisted (s :: p) u (deeper [s] l) = (relisted p u l).map (deeper [s]) := by
  have hpath : (deeper [s] l).1 = s :: p ↔ l.1 = p := by simp
  rw [relisted, relisted]
  by_cases hl : l.1 = p
  · rw [if_pos (hpath.2 hl), if_pos hl, leaves_eq_map (s :: p), leaves_eq_map p, List.map_map]
    rfl
  · rw [if_neg (mt hpath.1 hl), if_neg hl, List.map_singleton]

/-- A change of a leaf is a change of its entry in the list. -/
theorem leaves_modifyAt? (hv : v.Tidy leaf) (hl : (p, u) ∈ v.leaves [])
    (hw : modifyAt? (fun _ => some u') p v = some w) : w.leaves [] = (v.leaves []).flatMap (relisted p u') := by
  induction p generalizing v w with
  | nil =>
    cases hw
    obtain ⟨⟨⟩, hs⟩ := (mem_leaves_iff hv).1 hl
    rw [leaves_of_isScalar hs, List.flatMap_singleton, relisted, if_pos rfl]
  | cons s p ih =>
    obtain ⟨c, c', hc, hmod, hput⟩ := modifyAt?_cons_eq_some.1 hw
    obtain ⟨hs, hs'⟩ := not_isScalar_of_putChild? hput
    obtain ⟨d, hd, hl⟩ := (mem_leaves_cons hs).1 hl
    cases hc.symm.trans (child?_of_mem_parts hv hd)
    have hc' := ih (hv.child? hc) hl hmod
    rw [leaves_nil hs', leaves_nil hs, parts_putChild? hv hc hput, List.flatMap_map, List.flatMap_assoc]
    refine List.flatMap_congr fun e he => ?_
    rw [List.flatMap_map]
    by_cases hes : e.1 = s
    · subst hes
      cases hc.symm.trans (child?_of_mem_parts hv he)
      rw [if_pos rfl, hc', List.map_flatMap]
      exact List.flatMap_congr fun l _ => (relisted_deeper e.1 p u' l).symm
    · rw [if_neg hes, List.map_eq_flatMap]
      refine List.flatMap_congr fun l _ => ?_
      rw [relisted]
      exact (if_neg fun h : (deeper [e.1] l).1 = s :: p => hes (List.cons.inj h).1).symm

theorem at?_cons_of_isScalar (hv : v.IsScalar) (s : Segment) (p : FieldPath) : v.at? (s :: p) = none := by
  rw [at?, child?_of_isScalar hv s, Option.bind_none]

theorem not_isScalar_of_setField (h : root.setField path value = .ok w) : ¬w.IsScalar := by
  intro hw
  have hat := at?_setField h
  cases path with
  | nil =>
    obtain ⟨front, s, hpath, -⟩ := setField_eq_ok.1 h
    simp at hpath
  | cons s path =>
    rw [at?_cons_of_isScalar hw] at hat
    contradiction

theorem ne_nil_of_mem_leaves (hv : v.Tidy leaf) (hs : ¬v.IsScalar) (hl : (p, u) ∈ v.leaves []) : p ≠ [] := by
  rintro rfl
  obtain ⟨⟨⟩, hu⟩ := (mem_leaves_iff hv).1 hl
  exact hs hu

/-- Every leaf can be given another value, and only its own entry in the list is then different. -/
theorem setField_leaf (hv : root.Tidy leaf) (hs : ¬root.IsScalar) (hl : (p, u) ∈ root.leaves []) (u' : Json) :
    ∃ w, root.setField p u' = .ok w ∧ w.leaves [] = (root.leaves []).flatMap (relisted p u') := by
  have hat := ((mem_leaves_iff hv).1 hl).1
  have hne := ne_nil_of_mem_leaves hv hs hl
  obtain ⟨w, hw⟩ := exists_modifyAt? (f := fun _ => some u') hat rfl
  exact ⟨w, (setField_of_at? hne hat).2 hw, leaves_modifyAt? hv hl hw⟩

theorem flatMap_relisted (hu : u.IsScalar) (p : FieldPath) (ls : List (FieldPath × Json)) :
    ls.flatMap (relisted p u) = ls.map fun l => if l.1 = p then (p, u) else l := by
  rw [List.map_eq_flatMap]
  refine List.flatMap_congr fun l _ => ?_
  rw [relisted]
  split
  · exact leaves_of_isScalar hu p
  · rfl

theorem map_fst_relisted (hu : u.IsScalar) (p : FieldPath) (ls : List (FieldPath × Json)) :
    (ls.flatMap (relisted p u)).map Prod.fst = ls.map Prod.fst := by
  rw [flatMap_relisted hu, List.map_map]
  refine List.map_congr_left fun l _ => ?_
  rw [Function.comp_apply]
  split
  · next h => exact h.symm
  · rfl

theorem mem_relisted_of_ne {l : FieldPath × Json} {ls : List (FieldPath × Json)} (hl : l ∈ ls) (hne : l.1 ≠ p) :
    l ∈ ls.flatMap (relisted p u) :=
  List.mem_flatMap.2 ⟨l, hl, by rw [relisted, if_neg hne]; exact List.mem_singleton_self l⟩

theorem mem_relisted_self {ls : List (FieldPath × Json)} (hu : u.IsScalar) (hp : p ∈ ls.map Prod.fst) :
    (p, u) ∈ ls.flatMap (relisted p u) := by
  obtain ⟨l, hl, rfl⟩ := List.mem_map.1 hp
  rw [flatMap_relisted hu]
  exact List.mem_map.2 ⟨l, hl, if_pos rfl⟩

/-- Puts values at paths, one after the other. -/
def setAll (root : Json) (edits : List (FieldPath × Json)) : Except InputError Json :=
  edits.foldlM (fun w e => w.setField e.1 e.2) root

/-- Scalars put in the places of leaves: the same paths are listed, with the new values where there are any. -/
theorem setAll_leaves {edits : List (FieldPath × Json)} (hv : root.Tidy fun _ => True) (hs : ¬root.IsScalar)
    (hedits : ∀ e ∈ edits, e.1 ∈ (root.leaves []).map Prod.fst ∧ e.2.IsScalar)
    (hn : (edits.map Prod.fst).Nodup) :
    ∃ w, root.setAll edits = .ok w ∧ (w.leaves []).map Prod.fst = (root.leaves []).map Prod.fst ∧
      (∀ e ∈ edits, e ∈ w.leaves []) ∧ ∀ l ∈ root.leaves [], l.1 ∉ edits.map Prod.fst → l ∈ w.leaves [] := by
  induction edits generalizing root with
  | nil => exact ⟨root, rfl, rfl, nofun, fun l hl _ => hl⟩
  | cons e edits ih =>
    obtain ⟨⟨hmem, hscalar⟩, hrest⟩ := List.forall_mem_cons.1 hedits
    rw [List.map_cons, List.nodup_cons] at hn
    obtain ⟨l, hl, hle⟩ := List.mem_map.1 hmem
    have hentry : (e.1, l.2) ∈ root.leaves [] := by rwa [← hle]
    obtain ⟨w, hw, hleaves⟩ := setField_leaf hv hs hentry e.2
    have hpaths : (w.leaves []).map Prod.fst = (root.leaves []).map Prod.fst := by
      rw [hleaves, map_fst_relisted hscalar]
    obtain ⟨w', hw', hpaths', hnew, hold⟩ := ih (hv.setField (.scalar hscalar trivial) hw) (not_isScalar_of_setField hw)
      (fun e' he' => by rw [hpaths]; exact hrest e' he') hn.2
    refine ⟨w', ?_, hpaths'.trans hpaths, List.forall_mem_cons.2 ⟨hold e ?_ hn.1, hnew⟩, fun l hl hne => ?_⟩
    · rw [setAll, List.foldlM_cons, hw]
      exact hw'
    · rw [hleaves]
      exact mem_relisted_self hscalar hmem
    · rw [List.map_cons, List.mem_cons, not_or] at hne
      refine hold l ?_ hne.2
      rw [hleaves]
      exact mem_relisted_of_ne hl hne.1

end Json
end MockRedirect
