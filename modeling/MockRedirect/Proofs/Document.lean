import MockRedirect.Json.Document
import MockRedirect.Proofs.Tree
import Mathlib.Order.MinMax
/-! The trees of documents: how deep they are, and what is left of them without some of the members. -/
namespace MockRedirect
namespace Json

/-! ### Nesting -/

mutual
/-- How many containers are open inside one another. -/
def depth : Json → Nat
  | .arr xs => depthItems xs + 1
  | .obj ms => depthMembers ms + 1
  | _ => 0
def depthItems : List Json → Nat
  | [] => 0
  | v :: vs => max v.depth (depthItems vs)
def depthMembers : Members → Nat
  | [] => 0
  | (_, v) :: ms => max v.depth (depthMembers ms)
end

variable {v : Json} {xs : List Json} {ms : Members} {d : Nat}

theorem depth_of_isScalar (hv : v.IsScalar) : v.depth = 0 := by
  cases v with
  | arr | obj => exact hv.elim
  | _ => rfl

theorem depth_arr_le : (Json.arr xs).depth ≤ d + 1 ↔ ∀ x ∈ xs, x.depth ≤ d := by
  have hitems : depthItems xs ≤ d ↔ ∀ x ∈ xs, x.depth ≤ d := by
    induction xs with
    | nil => simp [depthItems]
    | cons x xs ih => rw [depthItems, Nat.max_le, ih, List.forall_mem_cons]
  rw [depth, Nat.add_le_add_iff_right, hitems]

theorem depth_obj_le : (Json.obj ms).depth ≤ d + 1 ↔ ∀ m ∈ ms, m.2.depth ≤ d := by
  have hmembers : depthMembers ms ≤ d ↔ ∀ m ∈ ms, m.2.depth ≤ d := by
    induction ms with
    | nil => simp [depthMembers]
    | cons m ms ih => rw [depthMembers, Nat.max_le, ih, List.forall_mem_cons]
  rw [depth, Nat.add_le_add_iff_right, hmembers]

theorem depth_arr_pos (xs : List Json) : ¬(Json.arr xs).depth ≤ 0 := by
  rw [depth]
  omega

theorem depth_obj_pos (ms : Members) : ¬(Json.obj ms).depth ≤ 0 := by
  rw [depth]
  omega

theorem exists_depth_items (h : (Json.arr xs).depth ≤ d) : ∃ k, d = k + 1 ∧ ∀ x ∈ xs, x.depth ≤ k := by
  cases d with
  | zero => exact absurd h (depth_arr_pos xs)
  | succ k => exact ⟨k, rfl, depth_arr_le.1 h⟩

theorem exists_depth_members (h : (Json.obj ms).depth ≤ d) :
    ∃ k, d = k + 1 ∧ ∀ m ∈ ms, m.2.depth ≤ k := by
  cases d with
  | zero => exact absurd h (depth_obj_pos ms)
  | succ k => exact ⟨k, rfl, depth_obj_le.1 h⟩

end Json

namespace Document
open Json (prune pruneItems pruneMembers depthItems depthMembers)

/-! ### Values -/

variable {d : Document} {ds : List Document} {k : List Char} {es : Entries} {v : Json} {vs : List Json}
  {ms : Members}

theorem value?_text {b : List Char} :
    (Document.text b).value? = some v ↔ ∃ s, stringValue? b = some s ∧ .str s = v := by
  simp [value?]

theorem value?_list :
    (Document.list ds).value? = some v ↔ ∃ vs, itemValues? ds = some vs ∧ .arr vs = v := by
  simp [value?]

theorem value?_record :
    (Document.record es).value? = some v ↔ ∃ ms, memberValues? es = some ms ∧ .obj ms = v := by
  simp [value?]

theorem itemValues?_cons : itemValues? (d :: ds) = some vs ↔
    ∃ x xs, d.value? = some x ∧ itemValues? ds = some xs ∧ x :: xs = vs := by
  simp [itemValues?, Option.bind_eq_some_iff]

theorem memberValues?_cons : memberValues? ((k, d) :: es) = some ms ↔ ∃ key x xs,
    stringValue? k = some key ∧ d.value? = some x ∧ memberValues? es = some xs ∧ (key, x) :: xs = ms := by
  simp [memberValues?, Option.bind_eq_some_iff]

/-! ### Without some members -/

variable {drop : List Char → Bool} {noise : String → Bool}

mutual
/-- The members left out of a document are missing in its tree. Whatever else the tree then lacks of the
noise is pruned in both. -/
theorem value?_without (h : ∀ k key, drop k = true → stringValue? k = some key → noise key = true) :
    ∀ (d : Document) (v : Json), d.value? = some v → ∃ w, (d.without drop).value? = some w ∧
      w.prune noise = v.prune noise ∧ w.depth ≤ v.depth
  | .word w, v, hv => ⟨v, hv, rfl, Nat.le_refl _⟩
  | .text b, v, hv => ⟨v, hv, rfl, Nat.le_refl _⟩
  | .list ds, v, hv => by
    obtain ⟨vs, hvs, rfl⟩ := value?_list.1 hv
    obtain ⟨ws, hws, hprune, hdepth⟩ := itemValues?_without h ds vs hvs
    refine ⟨.arr ws, value?_list.2 ⟨ws, hws, rfl⟩, congrArg Json.arr hprune, Nat.succ_le_succ hdepth⟩
  | .record es, v, hv => by
    obtain ⟨ms, hms, rfl⟩ := value?_record.1 hv
    obtain ⟨ws, hws, hprune, hdepth⟩ := memberValues?_without h es ms hms
    refine ⟨.obj ws, value?_record.2 ⟨ws, hws, rfl⟩, congrArg Json.obj hprune, Nat.succ_le_succ hdepth⟩
theorem itemValues?_without (h : ∀ k key, drop k = true → stringValue? k = some key → noise key = true) :
    ∀ (ds : List Document) (vs : List Json), itemValues? ds = some vs →
      ∃ ws, itemValues? (itemsWithout drop ds) = some ws ∧
        pruneItems noise ws = pruneItems noise vs ∧ depthItems ws ≤ depthItems vs
  | [], vs, hvs => ⟨vs, hvs, rfl, Nat.le_refl _⟩
  | d :: ds, vs, hvs => by
    obtain ⟨x, xs, hx, hxs, rfl⟩ := itemValues?_cons.1 hvs
    obtain ⟨w, hw, hprune, hdepth⟩ := value?_without h d x hx
    obtain ⟨ws, hws, hprunes, hdepths⟩ := itemValues?_without h ds xs hxs
    refine ⟨w :: ws, itemValues?_cons.2 ⟨w, ws, hw, hws, rfl⟩, ?_, ?_⟩
    · rw [pruneItems, pruneItems, hprune, hprunes]
    · exact max_le_max hdepth hdepths
theorem memberValues?_without (h : ∀ k key, drop k = true → stringValue? k = some key → noise key = true) :
    ∀ (es : Entries) (ms : Members), memberValues? es = some ms →
      ∃ ws, memberValues? (membersWithout drop es) = some ws ∧
        pruneMembers noise ws = pruneMembers noise ms ∧ depthMembers ws ≤ depthMembers ms
  | [], ms, hms => ⟨ms, hms, rfl, Nat.le_refl _⟩
  | (k, d) :: es, ms, hms => by
    obtain ⟨key, x, xs, hkey, hx, hxs, rfl⟩ := memberValues?_cons.1 hms
    obtain ⟨w, hw, hprune, hdepth⟩ := value?_without h d x hx
    obtain ⟨ws, hws, hprunes, hdepths⟩ := memberValues?_without h es xs hxs
    rw [membersWithout]
    split
    · next hk =>
      refine ⟨ws, hws, ?_, le_max_of_le_right hdepths⟩
      rw [hprunes, pruneMembers, if_pos (h k key hk hkey)]
    · refine ⟨(key, w) :: ws, memberValues?_cons.2 ⟨key, w, ws, hkey, hw, hws, rfl⟩, ?_, ?_⟩
      · rw [pruneMembers, pruneMembers, hprune, hprunes]
      · exact max_le_max hdepth hdepths
end

end Document
end MockRedirect
