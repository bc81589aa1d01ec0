import MockRedirect.Mock.Draft
import MockRedirect.Proofs.Address
import MockRedirect.Proofs.Tree
/-! Edits of a body keep what holds of all its parts. -/
namespace MockRedirect

namespace Json

variable {leaf : Json → Prop} {v w root value : Json} {path : FieldPath}

/-! ### Paths -/

theorem Tidy.child? {s : Segment} (h : v.Tidy leaf) (hw : v.child? s = some w) : w.Tidy leaf := by
  cases s with
  | key name =>
    cases v with
    | obj ms => exact (tidy_obj.1 h).2 _ (Members.mem_of_get? hw)
    | _ => contradiction
  | index i =>
    cases v with
    | arr xs => exact tidy_arr.1 h _ (List.mem_of_getElem? hw)
    | _ => contradiction

theorem Tidy.at? (h : v.Tidy leaf) (hw : v.at? path = some w) : w.Tidy leaf := by
  induction path generalizing v with
  | nil =>
    cases hw
    exact h
  | cons s path ih =>
    obtain ⟨u, hu, hw⟩ := Option.bind_eq_some_iff.1 hw
    exact ih (h.child? hu) hw

theorem Tidy.put {ms : Members} (h : (Json.obj ms).Tidy leaf) (hv : value.Tidy leaf) (key : String) :
    (Json.obj (Members.put key value ms)).Tidy leaf := by
  rw [tidy_obj] at h ⊢
  refine ⟨Members.nodup_keys_put h.1 key value, fun m hm => ?_⟩
  obtain rfl | hms := Members.mem_put hm
  · exact hv
  · exact h.2 m hms

theorem Tidy.set {xs : List Json} (h : (Json.arr xs).Tidy leaf) (hv : value.Tidy leaf) (i : Nat) :
    (Json.arr (xs.set i value)).Tidy leaf := by
  rw [tidy_arr] at h ⊢
  intro x hx
  obtain hxs | rfl := List.mem_or_eq_of_mem_set hx
  · exact h x hxs
  · exact hv

/-- A change at a path keeps what the change of the value there keeps. -/
theorem Tidy.modifyAt? {f : Json → Option Json} (hf : ∀ {v w}, v.Tidy leaf → f v = some w → w.Tidy leaf)
    (h : v.Tidy leaf) (hw : Json.modifyAt? f path v = some w) : w.Tidy leaf := by
  induction path generalizing v w with
  | nil => exact hf h hw
  | cons s path ih =>
    cases s with
    | key name =>
      cases v with
      | obj ms =>
        obtain ⟨u, hu, hw⟩ := Option.bind_eq_some_iff.1 hw
        obtain ⟨u', hu', hw⟩ := Option.bind_eq_some_iff.1 hw
        cases hw
        exact h.put (ih ((tidy_obj.1 h).2 _ (Members.mem_of_get? hu)) hu') name
      | _ => contradiction
    | index i =>
      cases v with
      | arr xs =>
        obtain ⟨u, hu, hw⟩ := Option.bind_eq_some_iff.1 hw
        obtain ⟨u', hu', hw⟩ := Option.bind_eq_some_iff.1 hw
        cases hw
        exact h.set (ih (tidy_arr.1 h _ (List.mem_of_getElem? hu)) hu') i
      | _ => contradiction

/-! ### Edits -/

theorem orNoField_eq_ok {text : String} {v? : Option Json} : orNoField text v? = .ok w ↔ v? = some w := by
  cases v? <;> simp [orNoField]

theorem Tidy.putChild? {s : Segment} (hv : value.Tidy leaf) (h : v.Tidy leaf)
    (hw : Json.putChild? s value v = some w) : w.Tidy leaf := by
  cases v with
  | obj ms =>
    cases s with
    | key name =>
      cases hw
      exact h.put hv name
    | index i => contradiction
  | arr xs =>
    cases s with
    | key name => contradiction
    | index i =>
      rw [Json.putChild?] at hw
      split at hw
      · cases hw
        exact h.set hv i
      · contradiction
  | _ => contradiction

theorem Tidy.setField (h : root.Tidy leaf) (hv : value.Tidy leaf)
    (hw : root.setField path value = .ok w) : w.Tidy leaf := by
  rw [Json.setField, orNoField_eq_ok] at hw
  split at hw
  · exact h.modifyAt? (fun hu => Tidy.putChild? hv hu) hw
  · contradiction

theorem Tidy.newItem {xs : List Json} {sample : Json} (h : (Json.arr xs).Tidy leaf)
    (hs : sample.Tidy leaf) : (Json.newItem xs path (some sample)).Tidy leaf := by
  cases xs with
  | nil =>
    rw [Json.newItem, Option.bind_some]
    cases hat : sample.at? (FieldPath.firstElements path ++ [.index 0]) with
    | none => exact tidy_obj.2 ⟨List.nodup_nil, by simp⟩
    | some u => exact hs.at? hat
  | cons x xs => exact tidy_arr.1 h x List.mem_cons_self

theorem Tidy.pushItem {sample : Json} (h : root.Tidy leaf) (hs : sample.Tidy leaf)
    (hw : root.pushItem path (some sample) = .ok w) : w.Tidy leaf := by
  rw [Json.pushItem, orNoField_eq_ok] at hw
  refine h.modifyAt? (fun {v u} hv hu => ?_) hw
  cases v with
  | arr xs =>
    cases hu
    rw [tidy_arr]
    intro x hx
    obtain hxs | hx := List.mem_append.1 hx
    · exact tidy_arr.1 hv x hxs
    · obtain rfl := List.mem_singleton.1 hx
      exact Tidy.newItem hv hs
  | _ => contradiction

theorem Tidy.removeItem {i : Nat} (h : root.Tidy leaf) (hw : root.removeItem path i = .ok w) :
    w.Tidy leaf := by
  rw [Json.removeItem] at hw
  split at hw
  · next xs hat =>
    split at hw
    · rw [orNoField_eq_ok] at hw
      refine h.modifyAt? (fun _ hu => ?_) hw
      cases hu
      rw [tidy_arr]
      intro x hx
      exact tidy_arr.1 (h.at? hat) x (List.mem_of_mem_eraseIdx hx)
    · contradiction
  · contradiction

theorem Tidy.zeroStatus (h : v.Tidy leaf) (hz : leaf (.int 0)) : v.zeroStatus.Tidy leaf := by
  have hzero : (Json.int 0).Tidy leaf := .scalar trivial hz
  cases v with
  | obj ms =>
    rw [Json.zeroStatus]
    split
    · next status hs =>
      have hstatus : (Json.obj status).Tidy leaf := (tidy_obj.1 h).2 _ (Members.mem_of_get? hs)
      exact h.put ((hstatus.put hzero _).put hzero _) _
    · exact h
  | _ => exact h

/-- Raw text becomes a scalar. -/
theorem isScalar_coerce (path : FieldPath) (raw : String) (current : Json) :
    (coerce path raw current).IsScalar := by
  unfold coerce
  split
  · trivial
  · dsimp only
    split
    · trivial
    · split
      · trivial
      · split <;> trivial

end Json

namespace Draft

variable {leaf : Json → Prop} {d d' : Draft} {path raw : String}

/-- Both the body of a draft and what its new elements are made from. -/
def Tidy (leaf : Json → Prop) (d : Draft) : Prop := d.body.Tidy leaf ∧ d.sample.Tidy leaf

theorem tidy_ofMock {m : Mock} (h : m.body.Tidy leaf) (hz : leaf (.int 0)) : (ofMock m).Tidy leaf :=
  ⟨h.zeroStatus hz, h.zeroStatus hz⟩

theorem Tidy.setField (h : d.Tidy leaf) (hd : d.setField path raw = .ok d')
    (hc : ∀ p current, leaf (Json.coerce p raw current)) : d'.Tidy leaf := by
  obtain ⟨p, -, hd⟩ := bind_eq_ok.1 hd
  split at hd
  · contradiction
  · next current _ =>
    obtain ⟨body, hbody, hd⟩ := bind_eq_ok.1 hd
    cases hd
    exact ⟨h.1.setField (.scalar (Json.isScalar_coerce p raw current) (hc p current)) hbody, h.2⟩

theorem Tidy.pushItem (h : d.Tidy leaf) (hd : d.pushItem path = .ok d') : d'.Tidy leaf := by
  obtain ⟨p, -, hd⟩ := bind_eq_ok.1 hd
  obtain ⟨body, hbody, hd⟩ := bind_eq_ok.1 hd
  cases hd
  exact ⟨h.1.pushItem h.2 hbody, h.2⟩

theorem Tidy.removeItem {i : Nat} (h : d.Tidy leaf) (hd : d.removeItem path i = .ok d') :
    d'.Tidy leaf := by
  obtain ⟨p, -, hd⟩ := bind_eq_ok.1 hd
  obtain ⟨body, hbody, hd⟩ := bind_eq_ok.1 hd
  cases hd
  exact ⟨h.1.removeItem hbody, h.2⟩

end Draft
end MockRedirect
