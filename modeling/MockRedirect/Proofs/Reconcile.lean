import MockRedirect.Proofs.Plan
import MockRedirect.Proofs.Table
import MockRedirect.Rule.Sync
/-! Reconciliation replaces the managed rules of a table and nothing else. -/
namespace MockRedirect
open List

/-! ### Managed and foreign rules -/

namespace Table

/-- The rules that belong to the mocks. -/
def managed (t : Table) : Table := t.filter (isManaged ·.id)

/-- The rules that do not belong to the mocks. -/
def foreign (t : Table) : Table := t.filter (!isManaged ·.id)

theorem ids_managed (t : Table) : (t.map (·.id)).filter isManaged = t.managed.map (·.id) :=
  filter_map

theorem remove_managed (t : Table) : t.remove (t.managed.map (·.id)) = t.foreign := by
  rw [← ids_managed]
  exact remove_ids t isManaged

/-- Among rules for the mocks, the foreign rules of a sorted table are those that were there. -/
theorem foreign_sorted_append {t : Table} {rules : List Rule}
    (h : ∀ r ∈ rules, isManaged r.id = true) :
    foreign (sorted (t.foreign ++ rules)) = t.foreign.sorted := by
  have hr : rules.filter (!isManaged ·.id) = [] := filter_eq_nil_iff.2 (by simpa using h)
  unfold foreign
  rw [filter_sorted, filter_append, hr, append_nil, filter_filter]
  simp only [Bool.and_self]

theorem managed_sorted_append {t : Table} {rules : List Rule}
    (h : ∀ r ∈ rules, isManaged r.id = true) :
    managed (sorted (t.foreign ++ rules)) = sorted rules := by
  have ht : t.foreign.filter (isManaged ·.id) = [] := filter_eq_nil_iff.2 (by simp [foreign])
  have hr : rules.filter (isManaged ·.id) = rules := filter_eq_self.2 h
  unfold managed
  rw [filter_sorted, filter_append, ht, hr, nil_append]

/-- Rules for the mocks are accepted whatever order the other rules are in. -/
theorem Accepts.sorted_left {t : Table} {rules : List Rule} (h : Accepts t rules) :
    Accepts t.sorted rules where
  nonzero := h.nonzero
  unused r hr := by
    rw [((sorted_perm t).map _).mem_iff]
    exact h.unused r hr
  distinct := h.distinct
  readable := h.readable
  fits := by
    rw [((sorted_perm t).append_right rules).length_eq]
    exact h.fits

end Table

namespace Engine

/-- The rules for the mocks of a store; none at all if its switch is an explicit false. -/
def planned (entries : Members) : List Rule :=
  match Members.get? globalKey entries with
  | some (.bool false) => []
  | _ => (Plan.ofMocks (Records.ofEntries entries).mocks).rules.toList

theorem rules_planFor (entries : Members) : (planFor entries).rules.toList = planned entries := by
  unfold planned
  split
  · next h => simp [planFor, Mocks.isOn, h, Plan.empty]
  · next h => simp [planFor, Mocks.isOn]

theorem planned_of_isOn {entries : Members} (h : Mocks.isOn entries = true) :
    planned entries = (Plan.ofMocks (Records.ofEntries entries).mocks).rules.toList := by
  rw [← rules_planFor, planFor, if_pos h]

/-- The switch and the plan for the mocks decide. -/
theorem planned_congr {entries entries' : Members} (hon : Mocks.isOn entries = Mocks.isOn entries')
    (hplan : Plan.ofMocks (Records.ofEntries entries).mocks = Plan.ofMocks (Records.ofEntries entries').mocks) :
    planned entries = planned entries' := by
  rw [← rules_planFor, ← rules_planFor, planFor, planFor, hon, hplan]

theorem isManaged_of_planned {entries : Members} {r : Rule} (h : r ∈ planned entries) :
    isManaged r.id = true := by
  unfold planned at h
  split at h
  · contradiction
  · exact (Plan.sound_ofMocks _).managed r h

/-! ### Actions -/

/-- A table can be kept if there is no file, or if the file can be written. -/
def CanWrite (writable : Bool) (e : Engine) : Prop := e.backing = .memory ∨ writable = true

instance (writable : Bool) (e : Engine) : Decidable (CanWrite writable e) :=
  inferInstanceAs (Decidable (_ ∨ _))

/-- The engine with another table, which its file holds too. -/
def holding (e : Engine) (table : Table) : Engine :=
  ⟨table, match e.backing with
    | .memory => .memory
    | .file _ => .file (some (Table.fileText table))⟩

theorem holding_holding (e : Engine) (t u : Table) : (e.holding t).holding u = e.holding u := by
  obtain ⟨_, backing⟩ := e
  cases backing <;> rfl

theorem canWrite_holding {writable : Bool} {e : Engine} (h : CanWrite writable e) (t : Table) :
    CanWrite writable (e.holding t) := by
  obtain ⟨_, backing⟩ := e
  cases backing with
  | memory => exact Or.inl rfl
  | file text => simpa [CanWrite, holding] using h

theorem run_transact (writable : Bool) (tx : Transaction) (e : Engine) :
    (transact writable tx).run e =
      match e.table.apply tx with
      | .error fault => (.error (.transaction fault), e)
      | .ok table =>
        if CanWrite writable e then (.ok (), e.holding table) else (.error .unavailable, e) := by
  have hget : (transact writable tx).run e =
      (match e.table.apply tx with
        | .error fault => throw (.transaction fault)
        | .ok table => do
          persist writable table
          modify fun e => { e with table } : Action Unit).run e := rfl
  rw [hget]
  cases e.table.apply tx with
  | error fault => rfl
  | ok table =>
    obtain ⟨t, backing⟩ := e
    cases backing <;> cases writable <;> rfl

theorem run_bind_pure (act : Action Unit) (a : α) (e : Engine) :
    (do act; pure a : Action α).run e = ((act.run e).1.map fun _ => a, (act.run e).2) := by
  rw [ExceptT.run_bind]
  rcases h : act.run e with ⟨r, e'⟩
  simp only [bind, StateT.bind, h]
  cases r <;> rfl

/-- What a reconciliation reports when it succeeds. -/
def report (entries : Members) (t : Table) : Report :=
  ⟨Mocks.isOn entries, t.managed.map (·.id), (planned entries).map (·.id),
    (planFor entries).skipped.toList⟩

/-- A reconciliation is one transaction: the managed rules go, the planned ones come. -/
theorem run_sync (writable : Bool) (entries : Members) (e : Engine) :
    (sync writable entries).run e =
      let r := (transact writable ⟨e.table.managed.map (·.id), planned entries⟩).run e
      (r.1.map fun _ => report entries e.table, r.2) := by
  have hrun : (sync writable entries).run e =
      (do transact writable ⟨e.table.managed.map (·.id), planned entries⟩
          pure (report entries e.table) : Action Report).run e := by
    rw [report, ← rules_planFor, ← Table.ids_managed]
    rfl
  rw [hrun, run_bind_pure]

/-- A reconciliation succeeds exactly if the other rules leave room for the planned ones and the
table can be written; otherwise nothing has changed. -/
theorem run_sync_cases (writable : Bool) (entries : Members) (e : Engine) :
    (Table.Accepts e.table.foreign (planned entries) ∧ CanWrite writable e ∧
      (sync writable entries).run e = (.ok (report entries e.table),
        e.holding (Table.sorted (e.table.foreign ++ planned entries)))) ∨
    (¬(Table.Accepts e.table.foreign (planned entries) ∧ CanWrite writable e) ∧
      ∃ cause, (sync writable entries).run e = (.error cause, e)) := by
  have happly : e.table.apply ⟨e.table.managed.map (·.id), planned entries⟩ =
      Table.add e.table.foreign (planned entries) := by
    rw [Table.apply, Table.remove_managed]
  rw [run_sync, run_transact, happly]
  cases hadd : Table.add e.table.foreign (planned entries) with
  | error fault =>
    have hno : ¬Table.Accepts e.table.foreign (planned entries) := fun ha => by
      rw [Table.add_eq_ok_iff.2 ⟨ha, rfl⟩] at hadd
      contradiction
    exact Or.inr ⟨fun h => hno h.1, _, rfl⟩
  | ok table =>
    obtain ⟨ha, rfl⟩ := Table.add_eq_ok_iff.1 hadd
    by_cases hw : CanWrite writable e
    · exact Or.inl ⟨ha, hw, by simp [hw, Except.map]⟩
    · exact Or.inr ⟨fun h => hw h.2, .unavailable, by simp [hw, Except.map]⟩

/-! ### Reconciliation -/

/-- What a reconciliation that succeeds reports and leaves behind. -/
structure Replaced (entries : Members) (t : Table) (report : Report) (t' : Table) : Prop where
  sorted : t'.Pairwise (·.id ≤ ·.id)
  foreign : t'.foreign ~ t.foreign
  managed : t'.managed ~ planned entries
  enabled : report.globalEnabled = false ↔ Members.get? globalKey entries = some (.bool false)
  removed : report.removed = t.managed.map (·.id)
  added : report.added = (planned entries).map (·.id)

theorem isOn_eq_false_iff (entries : Members) :
    Mocks.isOn entries = false ↔ Members.get? globalKey entries = some (.bool false) := by
  unfold Mocks.isOn
  split
  · next h => simp [h]
  · next h => simpa using h

theorem replaced (entries : Members) (t : Table) :
    Replaced entries t (report entries t) (Table.sorted (t.foreign ++ planned entries)) where
  sorted := Table.pairwise_sorted _
  foreign := by
    rw [Table.foreign_sorted_append fun _ => isManaged_of_planned]
    exact Table.sorted_perm _
  managed := by
    rw [Table.managed_sorted_append fun _ => isManaged_of_planned]
    exact Table.sorted_perm _
  enabled := isOn_eq_false_iff entries
  removed := rfl
  added := rfl

/-- The result of a reconciliation depends on the foreign rules only. -/
theorem run_sync_of_accepts {writable : Bool} {entries : Members} {e : Engine}
    (ha : Table.Accepts e.table.foreign (planned entries)) (hw : CanWrite writable e) :
    (sync writable entries).run e = (.ok (report entries e.table),
      e.holding (Table.sorted (e.table.foreign ++ planned entries))) := by
  obtain ⟨-, -, h⟩ | ⟨hno, -⟩ := run_sync_cases writable entries e
  · exact h
  · exact absurd ⟨ha, hw⟩ hno

/-- A second reconciliation finds everything in place. -/
theorem run_sync_again {writable : Bool} {entries : Members} {e : Engine}
    (ha : Table.Accepts e.table.foreign (planned entries)) (hw : CanWrite writable e) :
    let e' := e.holding (Table.sorted (e.table.foreign ++ planned entries))
    (sync writable entries).run e' = (.ok (report entries e'.table), e') := by
  intro e'
  have hf : e'.table.foreign = e.table.foreign.sorted :=
    Table.foreign_sorted_append fun _ => isManaged_of_planned
  have ha' : Table.Accepts e'.table.foreign (planned entries) := hf ▸ ha.sorted_left
  rw [run_sync_of_accepts ha' (canWrite_holding hw _), hf, Table.sorted_sorted_append,
    holding_holding]

/-- Whatever the store and the table: a reconciliation that fails changes nothing, and one that
succeeds replaces the managed rules and nothing else. Then tables that differ in managed rules only
become equal, and reconciling once more changes nothing. -/
theorem sync_replaces_managed (writable : Bool) (entries : Members) (e : Engine) :
    match (sync writable entries).run e with
    | (.error _, e') => e' = e
    | (.ok report, e') =>
      Replaced entries e.table report e'.table ∧
      (∀ (w : Bool) (other : Engine), CanWrite w other → other.table.foreign = e.table.foreign →
        ∃ r other', (sync w entries).run other = (.ok r, other') ∧ other'.table = e'.table) ∧
      ∃ r, (sync writable entries).run e' = (.ok r, e') := by
  obtain ⟨ha, hw, h⟩ | ⟨-, cause, h⟩ := run_sync_cases writable entries e
  · rw [h]
    refine ⟨replaced entries e.table, ?_, _, run_sync_again ha hw⟩
    intro w other hother hf
    have hrun := run_sync_of_accepts (hf ▸ ha) hother
    exact ⟨_, _, hrun, by rw [hf]; rfl⟩
  · rw [h]

end Engine
end MockRedirect
