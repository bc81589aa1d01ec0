import MockRedirect.Proofs.Reopen
/-! Stores in which every number is read back from its text, wherever they come from. Calls keep them that
way, and a file that such a store writes holds what the store holds. -/
namespace MockRedirect
open Store

theorem Json.tidy_putAll {leaf : Json → Prop} {ms new : Members} (h : (Json.obj ms).Tidy leaf)
    (hnew : ∀ m ∈ new, m.2.Tidy leaf) : (Json.obj (Members.putAll ms new)).Tidy leaf := by
  rw [Json.tidy_obj] at h ⊢
  refine ⟨Members.nodup_keys_putAll h.1 new, fun m hm => ?_⟩
  exact (Members.mem_putAll hm).elim (h.2 m) (hnew m)

namespace Store

/-- No member is repeated, and every number in the store is read back from its text. -/
def Lasting (s : Store) : Prop := (Json.obj s.entries).Tidy Json.Lasting

variable {s : Store} {r : Record}

/-- What stands in the list of such a store is such a tree. -/
theorem Lasting.stored (h : s.Lasting) : ∀ v ∈ Records.stored s.entries, v.Tidy Json.Lasting := by
  intro v hv
  rw [Records.stored] at hv
  split at hv
  · next vs heq => exact Json.tidy_arr.1 ((Json.tidy_obj.1 h).2 _ (Members.mem_of_get? heq)) v hv
  · contradiction

theorem Lasting.normal (h : s.Lasting) {m : Mock} (hm : .mock m ∈ Records.ofEntries s.entries) :
    m.Normal Json.Lasting := by
  rw [Records.ofEntries_eq_map] at hm
  obtain ⟨v, hv, hmock⟩ := List.mem_map.1 hm
  exact Mock.normal_of_ofJson? (h.stored v hv) (Record.ofJson_eq_mock hmock)

theorem Lasting.unreadable (h : s.Lasting) {v : Json} (hv : .unreadable v ∈ Records.ofEntries s.entries) :
    v.Tidy Json.Lasting := by
  rw [Records.ofEntries_eq_map] at hv
  obtain ⟨w, hw, hunreadable⟩ := List.mem_map.1 hv
  obtain rfl := Record.ofJson_eq_unreadable hunreadable
  exact h.stored v hw

end Store

namespace Call

variable {c : Call} {a : c.Answer} {rs : Records} {s : Store} {new : Members}

theorem tidy_record_of_changes (h : c.Changes (.ofEntries s.entries) a rs) (hin : c.IdsInRange)
    (ht : c.Tidy Json.Lasting) (hs : s.Lasting) : ∀ r ∈ rs, r.toJson.Tidy Json.Lasting := by
  have hzero : Json.Lasting (.int 0) := Json.lasting_int (by decide) (by decide)
  intro r hr
  cases r with
  | mock m => exact Mock.tidy_toJson (normal_of_changes h hin ht hzero (fun _ => hs.normal) m hr)
  | unreadable v =>
    obtain hold | ⟨m, hmock, -⟩ := mem_of_changes h hr
    · exact hs.unreadable hold
    · contradiction

/-- Whatever a call writes, the numbers in the store are still read back. -/
theorem lasting_of_writes (h : c.Writes s.entries a new) (hin : c.IdsInRange) (ht : c.Tidy Json.Lasting)
    (hs : s.Lasting) : (s.set new).Lasting := by
  rw [Store.Lasting, entries_set]
  refine Json.tidy_putAll hs fun m hm => ?_
  cases h with
  | read _ _ => contradiction
  | seed hseed =>
    obtain ⟨rfl, -⟩ | ⟨rfl, -⟩ := Mocks.mem_seed hseed hm
    · exact Json.tidy_arr.2 (by simp)
    · exact .scalar trivial (Json.lasting_bool true)
  | setGlobal on =>
    obtain rfl := List.mem_singleton.1 hm
    exact .scalar trivial (Json.lasting_bool on)
  | records hrs =>
    obtain rfl := List.mem_singleton.1 hm
    exact Json.tidy_arr.2 (List.forall_mem_map.2 (tidy_record_of_changes hrs hin ht hs))

end Call
end MockRedirect
