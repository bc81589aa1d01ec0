import MockRedirect.Proofs.Edit
/-! Places in a tree. What is put at a place is found there, what was there before does not matter any more, and all
that does not lie on the way is left alone. -/
namespace MockRedirect

namespace Json

variable {s t : Segment} {u u' v w root value : Json} {path q : FieldPath} {f g : Json → Option Json}

/-! ### One step -/

/-- A value is put under a key of an object, or in the place of an element of an array. -/
theorem putChild?_eq_some : putChild? s u v = some w ↔
    (∃ name ms, s = .key name ∧ v = .obj ms ∧ w = .obj (Members.put name u ms)) ∨
      ∃ i xs, s = .index i ∧ v = .arr xs ∧ i < xs.length ∧ w = .arr (xs.set i u) := by
  cases v with
  | obj ms => cases s <;> simp [putChild?, eq_comm]
  | arr xs => cases s <;> simp [putChild?, eq_comm]
  | _ => simp [putChild?]

theorem child?_putChild? (h : putChild? s u v = some w) : w.child? s = some u := by
  obtain ⟨name, ms, rfl, rfl, rfl⟩ | ⟨i, xs, rfl, rfl, hi, rfl⟩ := putChild?_eq_some.1 h
  · exact (Members.get?_put ..).trans (if_pos rfl)
  · exact List.getElem?_set_self hi

theorem child?_putChild?_of_ne (h : putChild? s u v = some w) (hne : s ≠ t) : w.child? t = v.child? t := by
  obtain ⟨name, ms, rfl, rfl, rfl⟩ | ⟨i, xs, rfl, rfl, hi, rfl⟩ := putChild?_eq_some.1 h
  · cases t with
    | key other => exact (Members.get?_put ..).trans (if_neg fun hname => hne (congrArg _ hname))
    | index j => rfl
  · cases t with
    | key name => rfl
    | index j => exact List.getElem?_set_ne fun hij => hne (congrArg _ hij)

/-- Of two values put under one segment the last is left. -/
theorem putChild?_putChild? (h : putChild? s u v = some w) : putChild? s u' w = putChild? s u' v := by
  obtain ⟨name, ms, rfl, rfl, rfl⟩ | ⟨i, xs, rfl, rfl, hi, rfl⟩ := putChild?_eq_some.1 h
  · rw [putChild?, putChild?, Members.put_put]
  · rw [putChild?, putChild?, List.length_set, List.set_set]

/-- Putting a child where it is already changes nothing. -/
theorem putChild?_of_child? (h : v.child? s = some u) : putChild? s u v = some v := by
  cases s with
  | key name =>
    cases v with
    | obj ms => rw [putChild?, Members.put_of_get? h]
    | _ => contradiction
  | index i =>
    cases v with
    | arr xs =>
      obtain ⟨hi, hget⟩ := List.getElem?_eq_some_iff.1 h
      rw [putChild?, if_pos hi, ← hget, List.set_getElem_self]
    | _ => contradiction

/-- Where there is a child, another one can be put. -/
theorem exists_putChild? (h : v.child? s = some u) (u' : Json) : ∃ w, putChild? s u' v = some w := by
  obtain ⟨name, ms, rfl, rfl, -⟩ | ⟨i, xs, rfl, rfl, hi, -⟩ := putChild?_eq_some.1 (putChild?_of_child? h)
  · exact ⟨_, rfl⟩
  · exact ⟨_, if_pos hi⟩

/-! ### Outlines -/

/-- What there is at a place, apart from what lies below it. -/
inductive Outline where
  | scalar (v : Json)
  | items (count : Nat)
  | members (keys : List String)

def outline : Json → Outline
  | .arr xs => .items xs.length
  | .obj ms => .members (Members.keys ms)
  | v => .scalar v

/-- A value that is put somewhere leaves the keys and the number of elements as they are, or its key is new and
comes last. -/
theorem outline_putChild?_cases (h : putChild? s u v = some w) : w.outline = v.outline ∨
    ∃ name ms, s = .key name ∧ v = .obj ms ∧ name ∉ Members.keys ms ∧
      w.outline = .members (Members.keys ms ++ [name]) := by
  obtain ⟨name, ms, rfl, rfl, rfl⟩ | ⟨i, xs, rfl, rfl, hi, rfl⟩ := putChild?_eq_some.1 h
  · by_cases hmem : name ∈ Members.keys ms
    · left
      rw [outline, outline, Members.keys_put_of_mem hmem]
    · exact Or.inr ⟨name, ms, rfl, rfl, hmem, by rw [outline, Members.keys_put_of_notMem hmem]⟩
  · left
    rw [outline, outline, List.length_set]

theorem outline_putChild? (hchild : v.child? s = some u) (h : putChild? s u' v = some w) :
    w.outline = v.outline := by
  obtain heq | ⟨name, ms, rfl, rfl, hnew, -⟩ := outline_putChild?_cases h
  · exact heq
  · exact absurd (List.mem_map_of_mem (Members.mem_of_get? hchild)) hnew

/-! ### Paths -/

theorem at?_append (v : Json) (p q : FieldPath) : v.at? (p ++ q) = (v.at? p).bind (·.at? q) := by
  induction p generalizing v with
  | nil => rfl
  | cons s p ih =>
    rw [List.cons_append, at?, at?, Option.bind_assoc]
    exact Option.bind_congr fun u _ => ih u

theorem at?_concat (v : Json) (p : FieldPath) (s : Segment) :
    v.at? (p ++ [s]) = (v.at? p).bind (·.child? s) := by
  rw [at?_append]
  refine Option.bind_congr fun u _ => ?_
  cases hu : u.child? s <;> simp [at?, hu]

/-- A change further down is the change of a child. -/
theorem modifyAt?_cons : modifyAt? f (s :: path) v =
    (v.child? s).bind fun u => (modifyAt? f path u).bind fun u' => putChild? s u' v := by
  cases s with
  | key name => cases v <;> rfl
  | index i =>
    cases v with
    | arr xs =>
      refine Option.bind_congr fun u hu => Option.bind_congr fun u' _ => ?_
      rw [putChild?, if_pos (List.getElem?_eq_some_iff.1 hu).1]
    | _ => rfl

theorem modifyAt?_cons_eq_some : modifyAt? f (s :: path) v = some w ↔
    ∃ u u', v.child? s = some u ∧ modifyAt? f path u = some u' ∧ putChild? s u' v = some w := by
  simp [modifyAt?_cons, Option.bind_eq_some_iff]

theorem modifyAt?_append (f : Json → Option Json) (p q : FieldPath) (v : Json) :
    modifyAt? f (p ++ q) v = modifyAt? (modifyAt? f q) p v := by
  induction p generalizing v with
  | nil => rfl
  | cons s p ih =>
    rw [List.cons_append, modifyAt?_cons, modifyAt?_cons]
    exact Option.bind_congr fun u _ => by rw [ih]

/-- A change at a path depends only on what it does to the value there. -/
theorem modifyAt?_congr (hu : root.at? path = some u) (hfg : f u = g u) :
    modifyAt? f path root = modifyAt? g path root := by
  induction path generalizing root with
  | nil =>
    cases hu
    exact hfg
  | cons s path ih =>
    obtain ⟨child, hchild, hat⟩ := Option.bind_eq_some_iff.1 hu
    rw [modifyAt?_cons, modifyAt?_cons, hchild, Option.bind_some, Option.bind_some, ih hat]

/-- A change at a path is a change of the value there, which then stands in its place. -/
theorem at?_of_modifyAt? (h : modifyAt? f path root = some w) :
    ∃ u u', root.at? path = some u ∧ f u = some u' ∧ w.at? path = some u' := by
  induction path generalizing root w with
  | nil => exact ⟨root, w, rfl, h, rfl⟩
  | cons s path ih =>
    obtain ⟨child, child', hchild, hmod, hput⟩ := modifyAt?_cons_eq_some.1 h
    obtain ⟨u, u', hu, hf, hu'⟩ := ih hmod
    refine ⟨u, u', ?_, hf, ?_⟩
    · rw [at?, hchild, Option.bind_some, hu]
    · rw [at?, child?_putChild? hput, Option.bind_some, hu']

/-- A value that is there can be changed. -/
theorem exists_modifyAt? (hu : root.at? path = some u) (hf : f u = some u') :
    ∃ w, modifyAt? f path root = some w := by
  induction path generalizing root with
  | nil =>
    cases hu
    exact ⟨u', hf⟩
  | cons s path ih =>
    obtain ⟨child, hchild, hat⟩ := Option.bind_eq_some_iff.1 hu
    obtain ⟨child', hmod⟩ := ih hat
    obtain ⟨w, hput⟩ := exists_putChild? hchild child'
    exact ⟨w, modifyAt?_cons_eq_some.2 ⟨child, child', hchild, hmod, hput⟩⟩

theorem modifyAt?_eq_none (h : ∀ u, root.at? path = some u → f u = none) : modifyAt? f path root = none := by
  by_contra hne
  obtain ⟨w, hw⟩ := Option.ne_none_iff_exists'.1 hne
  obtain ⟨u, u', hu, hf, -⟩ := at?_of_modifyAt? hw
  rw [h u hu] at hf
  contradiction

/-- Two changes at a path are one. -/
theorem modifyAt?_modifyAt? (h : modifyAt? f path root = some w) :
    modifyAt? g path w = modifyAt? (fun u => (f u).bind g) path root := by
  induction path generalizing root w with
  | nil =>
    have hf : f root = some w := h
    rw [modifyAt?, modifyAt?, hf, Option.bind_some]
  | cons s path ih =>
    obtain ⟨child, child', hchild, hmod, hput⟩ := modifyAt?_cons_eq_some.1 h
    rw [modifyAt?_cons, modifyAt?_cons, child?_putChild? hput, hchild, Option.bind_some, Option.bind_some, ih hmod]
    exact Option.bind_congr fun u _ => putChild?_putChild? hput

/-- A change that leaves the value as it is leaves the tree as it is. -/
theorem modifyAt?_self (hu : root.at? path = some u) (hf : f u = some u) : modifyAt? f path root = some root := by
  induction path generalizing root with
  | nil =>
    cases hu
    exact hf
  | cons s path ih =>
    obtain ⟨child, hchild, hat⟩ := Option.bind_eq_some_iff.1 hu
    exact modifyAt?_cons_eq_some.2 ⟨child, child, hchild, ih hat, putChild?_of_child? hchild⟩

/-! ### What is left alone -/

/-- Two trees differ at most at a path and below it. -/
structure SameBut (path : FieldPath) (v w : Json) : Prop where
  /-- What lies neither on the way to the path nor below it is the same. -/
  aside : ∀ q, ¬q <+: path → ¬path <+: q → w.at? q = v.at? q
  /-- All that does not lie below the path has the same keys in the same order, and as many elements. -/
  outline : ∀ q, ¬path <+: q → (w.at? q).map outline = (v.at? q).map outline

theorem SameBut.cons (h : SameBut path u u') (hchild : v.child? s = some u) (hput : putChild? s u' v = some w) :
    SameBut (s :: path) v w where
  aside q hq hpath := by
    cases q with
    | nil => exact absurd List.nil_prefix hq
    | cons t q =>
      by_cases hst : s = t
      · subst hst
        rw [at?, at?, hchild, child?_putChild? hput, Option.bind_some, Option.bind_some]
        exact h.aside q (fun hp => hq (List.cons_prefix_cons.2 ⟨rfl, hp⟩))
          fun hp => hpath (List.cons_prefix_cons.2 ⟨rfl, hp⟩)
      · rw [at?, at?, child?_putChild?_of_ne hput hst]
  outline q hpath := by
    cases q with
    | nil => exact congrArg some (outline_putChild? hchild hput)
    | cons t q =>
      by_cases hst : s = t
      · subst hst
        rw [at?, at?, hchild, child?_putChild? hput, Option.bind_some, Option.bind_some]
        exact h.outline q fun hp => hpath (List.cons_prefix_cons.2 ⟨rfl, hp⟩)
      · rw [at?, at?, child?_putChild?_of_ne hput hst]

/-- A change at a path leaves the rest of the tree alone. -/
theorem sameBut_of_modifyAt? (h : modifyAt? f path root = some w) : SameBut path root w := by
  induction path generalizing root w with
  | nil => exact ⟨fun q _ hq => absurd List.nil_prefix hq, fun q hq => absurd List.nil_prefix hq⟩
  | cons s path ih =>
    obtain ⟨child, child', hchild, hmod, hput⟩ := modifyAt?_cons_eq_some.1 h
    exact (ih hmod).cons hchild hput

end Json
end MockRedirect
