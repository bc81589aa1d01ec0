import MockRedirect.Proofs.Assignment
import MockRedirect.Proofs.Filter
import MockRedirect.Proofs.Reconcile
import MockRedirect.Proofs.Record
/-! Room for the planned rules. A plan asks nothing of a table that the table could object to, except for
room: there are more managed ids than a table holds rules, and the plan knows of the ids only. -/
namespace MockRedirect
open Text

/-! ### Planned rules are in order -/

/-- The filter of a rule for a mock can be read. -/
theorem Mock.readable_of_rule {m : Mock} {id : Nat} {r : Rule} (h : m.rule id = .ok r) :
    ∃ f, UrlFilter.parse r.condition.urlFilter = .ok f := by
  obtain ⟨⟨-, hascii⟩, rfl⟩ := rule_eq_ok_iff.1 h
  exact UrlFilter.exists_parse (by simp [filterText]) hascii

theorem Plan.readable_ofMocks (mocks : List Mock) :
    ∀ r ∈ (ofMocks mocks).rules.toList, ∃ f, UrlFilter.parse r.condition.urlFilter = .ok f := by
  intro r hr
  obtain ⟨os, ha⟩ := exists_accounts mocks
  rw [ha.rules] at hr
  obtain ⟨o, ho, hor⟩ := List.mem_filterMap.1 hr
  exact Mock.readable_of_rule (ha.rule_of_some ho hor).1

namespace Table

/-- Rules that are in order are refused for want of room only. -/
theorem add_of_room {kept : Table} {added : List Rule} (hnonzero : ∀ r ∈ added, r.id ≠ 0)
    (hunused : ∀ r ∈ added, r.id ∉ kept.map (·.id)) (hdistinct : (added.map (·.id)).Nodup)
    (hreadable : ∀ r ∈ added, ∃ f, UrlFilter.parse r.condition.urlFilter = .ok f) :
    kept.add added = if ruleLimit < (kept ++ added).length then .error (.tooMany (kept ++ added).length)
      else .ok (sorted (kept ++ added)) := by
  obtain ⟨used, hused⟩ : ∃ used,
      added.foldlM accept (Std.HashSet.ofList (kept.map (·.id))) = .ok used := by
    refine foldlM_accept_iff.2 ⟨fun r hr => ⟨hnonzero r hr, ?_, hreadable r hr⟩, hdistinct⟩
    simpa using hunused r hr
  unfold add
  rw [hused]
  simp only [bind, Except.bind]

/-- The planned rules are put in the place of the managed ones if there is room for them. -/
theorem apply_planned (t : Table) (mocks : List Mock) :
    let rules := (Plan.ofMocks mocks).rules.toList
    let count := t.foreign.length + min (mocks.countP (·.wantsRule)) lastManagedId
    t.apply ⟨t.managed.map (·.id), rules⟩ =
      if ruleLimit < count then .error (.tooMany count) else .ok (sorted (t.foreign ++ rules)) := by
  intro rules count
  have hmanaged := (Plan.sound_ofMocks mocks).managed
  have hcount : (t.foreign ++ rules).length = count := by
    rw [List.length_append, Plan.length_rules]
  rw [apply, remove_managed, ← hcount]
  refine add_of_room (fun r hr h0 => ?_) (fun r hr hin => ?_) (Plan.nodup_ofMocks mocks)
    (Plan.readable_ofMocks mocks)
  · have hm := isManaged_iff.1 (hmanaged r hr)
    omega
  · obtain ⟨f, hf, hid⟩ := List.mem_map.1 hin
    have hforeign := (List.mem_filter.1 hf).2
    rw [hid, hmanaged r hr] at hforeign
    contradiction

end Table

namespace Engine

/-- The transaction of a reconciliation is refused exactly if there is no room in the table: if the
foreign rules and the mocks that should have a rule are more than it holds. No mock is skipped to make
the others fit, and the rules from before stay. -/
theorem transact_planned (writable : Bool) (mocks : List Mock) (e : Engine) :
    let rules := (Plan.ofMocks mocks).rules.toList
    let count := e.table.foreign.length + min (mocks.countP (·.wantsRule)) lastManagedId
    (transact writable ⟨e.table.managed.map (·.id), rules⟩).run e =
      if ruleLimit < count then (.error (.transaction (.tooMany count)), e)
      else if CanWrite writable e then (.ok (), e.holding (Table.sorted (e.table.foreign ++ rules)))
      else (.error .unavailable, e) := by
  intro rules count
  rw [run_transact, Table.apply_planned]
  by_cases hroom : ruleLimit < count
  · rw [if_pos hroom, if_pos hroom]
  · rw [if_neg hroom, if_neg hroom]

end Engine

/-! ### A store with more mocks than a table holds -/

theorem Mock.readBack_numbered {n : Nat} (h : 1 ≤ n ∧ n ≤ MockId.highest) :
    (numbered n).readBack = numbered n := by
  have hid : MockId.reduce n = ⟨n⟩ := if_pos h
  simp only [readBack, numbered, Int.natAbs_natCast, hid]
  rfl

/-- What is stored once some number of mocks were saved. -/
def numberedEntries (count : Nat) : Members :=
  (Store.inMemory.set (Records.toEntries ((List.range' 1 count).map fun n => .mock (.numbered n)))).entries

theorem mocks_numberedEntries {count : Nat} (h : count ≤ MockId.highest) :
    (Records.ofEntries (numberedEntries count)).mocks = (List.range' 1 count).map Mock.numbered := by
  have hread : (Records.ofEntries (numberedEntries count)).mocks =
      (List.range' 1 count).map fun n => (Mock.numbered n).readBack := by
    rw [numberedEntries, Records.ofEntries_set, Records.mocks, List.map_map, List.filterMap_map,
      ← List.filterMap_eq_map]
    rfl
  rw [hread]
  refine List.map_congr_left fun n hn => Mock.readBack_numbered ?_
  rw [List.mem_range'_1] at hn
  omega

theorem countP_wantsRule_numbered (ns : List Nat) :
    (ns.map Mock.numbered).countP (·.wantsRule) = ns.length := by
  rw [List.countP_map, List.countP_eq_length]
  intro n _
  simp only [Function.comp_def, Mock.wantsRule_numbered]

namespace Engine

/-- With one mock too many none gets a rule. -/
theorem run_sync_numberedEntries :
    (sync true (numberedEntries 30001)).run inMemory =
      (.error (.transaction (.tooMany 30001)), inMemory) := by
  have hon : Mocks.isOn (numberedEntries 30001) = true := rfl
  have hmocks : (Records.ofEntries (numberedEntries 30001)).mocks = _ :=
    mocks_numberedEntries (by decide)
  have happly := Table.apply_planned inMemory.table (Records.ofEntries (numberedEntries 30001)).mocks
  rw [hmocks, countP_wantsRule_numbered, List.length_range'] at happly
  have hrefused : inMemory.table.apply ⟨inMemory.table.managed.map (·.id),
      planned (numberedEntries 30001)⟩ = .error (.tooMany 30001) := by
    rw [planned_of_isOn hon, hmocks]
    exact happly.trans (if_pos (by decide))
  rw [run_sync, run_transact, hrefused]
  rfl

end Engine
end MockRedirect
