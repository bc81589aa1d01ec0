import MockRedirect.Proofs.Call
import MockRedirect.Proofs.Tree
/-! Calls are atomic: one that fails leaves the store and its readers alone, and one that succeeds tells
the readers once of what it has written. -/
namespace MockRedirect
open Store

/-! ### Writing to a store -/

namespace Store

theorem changes_set {new : Members} (h : new ≠ []) (s : Store) :
    (s.set new).changes = s.changes.send ⟨Members.keys new⟩ := by
  rw [set, if_neg h]
  rfl

/-- Of one write readers are told once; entries under other keys are as before. -/
structure Told (keys : List String) (s t : Store) : Prop where
  changes : t.changes = s.changes.send ⟨keys⟩
  others : ∀ k ∉ keys, Members.get? k t.entries = Members.get? k s.entries

theorem told_set {new : Members} (h : new ≠ []) (s : Store) :
    Told (Members.keys new) s (s.set new) where
  changes := changes_set h s
  others k hk := by
    rw [entries_set]
    exact Members.get?_putAll_of_notMem hk s.entries

theorem told_set_one (key : String) (value : Json) (s : Store) :
    Told [key] s (s.set [(key, value)]) := told_set (List.cons_ne_nil (key, value) []) s

end Store

/-! ### Calls -/

namespace Call

/-- What readers are told of a call that succeeds, and what it leaves as it was: nothing is told of one
that only looks; seeding names the keys whose entries it has changed, if any; of any other call one
notice is sent, which names the one key that it is about. -/
def Tells (s t : Store) : Call → Prop
  | list | get _ | globalEnabled => t = s
  | seed => t = s ∨ ∃ keys, keys ≠ [] ∧ Told keys s t ∧
      ∀ k ∈ keys, Members.get? k t.entries ≠ Members.get? k s.entries
  | setGlobal _ => Told [globalKey] s t
  | _ => Told [Records.key] s t

theorem tells_of_isRead {c : Call} (h : c.IsRead) (s : Store) : c.Tells s s := by
  cases c with
  | list | get _ | globalEnabled => rfl
  | _ => exact h.elim

theorem tells_of_changes {c : Call} {a : c.Answer} {rs rs' : Records} {s t : Store}
    (h : c.Changes rs a rs') (ht : Told [Records.key] s t) : c.Tells s t := by
  cases h with
  | save m => exact ht
  | saveDraft d drawn => exact ht
  | addAll ds draw => exact ht
  | delete _ => exact ht
  | deleteAll => exact ht
  | edit hc _ _ =>
    cases c with
    | toggle _ | updateVerb _ _ | updateUrl _ _ | updateField _ _ _ | pushItem _ _
    | removeItem _ _ _ => exact ht
    | _ => contradiction

theorem tells_of_writes {c : Call} {a : c.Answer} {s : Store} {new : Members}
    (h : c.Writes s.entries a new) : c.Tells s (s.set new) := by
  cases h with
  | read hc a =>
    rw [set_nil]
    exact tells_of_isRead hc s
  | setGlobal on => exact told_set_one globalKey (.bool on) s
  | records hr => exact tells_of_changes hr (told_set_one Records.key _ s)
  | seed hseed =>
    by_cases hnew : new = []
    · rw [hnew, set_nil]
      exact .inl rfl
    · refine .inr ⟨Members.keys new, by simpa [Members.keys] using hnew, told_set hnew s, ?_⟩
      intro k hk
      rw [entries_set]
      exact (Mocks.mem_keys_seed_iff hseed k).1 hk

end Call

namespace Store

/-- A call that fails changes nothing, be it that its arguments are refused or that the file cannot be
written; one that succeeds sends one notice if it writes, and none otherwise. -/
theorem attempt_atomic (writable : Bool) (c : Call) (s : Store) :
    match s.attempt writable c.operation with
    | (.error _, t) => t = s
    | (.ok _, t) => c.Tells s t := by
  obtain ⟨e, h⟩ | ⟨a, new, hw, h⟩ := Call.attempt_cases writable c s
  · rw [h]
  · rw [h]
    exact Call.tells_of_writes hw

end Store
end MockRedirect
