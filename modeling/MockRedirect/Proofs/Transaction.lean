import MockRedirect.Proofs.Evaluation
import MockRedirect.Proofs.Reconcile
/-! Transactions one after the other: which of them an engine takes, what each leaves behind, and what
holds of every table that was empty once. -/
namespace MockRedirect
open List

/-! ### One transaction on a table -/

namespace Table

/-- The rules that a transaction does not remove. -/
def survivors (t : Table) (tx : Transaction) : Table := t.filter (·.id ∉ tx.removed)

theorem remove_eq_survivors (t : Table) (tx : Transaction) : t.remove tx.removed = t.survivors tx :=
  filter_congr fun r _ => by simp

theorem survivors_sublist (t : Table) (tx : Transaction) : t.survivors tx <+ t := filter_sublist

/-- What holds of a table from its first transaction on. -/
structure Valid (t : Table) : Prop where
  increasing : t.Pairwise (·.id < ·.id)
  positive : ∀ r ∈ t, 1 ≤ r.id
  readable : ∀ r ∈ t, ∃ f, UrlFilter.parse r.condition.urlFilter = .ok f
  fits : t.length ≤ ruleLimit

theorem valid_nil : Valid [] where
  increasing := .nil
  positive := by simp
  readable := by simp
  fits := by decide

theorem Valid.nodup_ids {t : Table} (h : Valid t) : (t.map (·.id)).Nodup :=
  pairwise_map.2 (h.increasing.imp Nat.ne_of_lt)

theorem Valid.sublist {t u : Table} (h : Valid t) (hu : u <+ t) : Valid u where
  increasing := h.increasing.sublist hu
  positive r hr := h.positive r (hu.subset hr)
  readable r hr := h.readable r (hu.subset hr)
  fits := Nat.le_trans hu.length_le h.fits

/-- Rules with different ids stand in increasing order once they are sorted. -/
theorem increasing_sorted {t : Table} (h : (t.map (·.id)).Nodup) :
    t.sorted.Pairwise (·.id < ·.id) := by
  have hne : t.sorted.Pairwise (·.id ≠ ·.id) := pairwise_map.1 (((sorted_perm t).map _).nodup_iff.2 h)
  exact ((pairwise_sorted t).and hne).imp fun hr => Nat.lt_of_le_of_ne hr.1 hr.2

theorem Accepts.nodup_ids {kept : Table} {added : List Rule} (h : Accepts kept added)
    (hkept : (kept.map (·.id)).Nodup) : ((kept ++ added).map (·.id)).Nodup := by
  rw [map_append, nodup_append]
  refine ⟨hkept, h.distinct, ?_⟩
  intro id hid id' hid' heq
  obtain ⟨r, hr, rfl⟩ := mem_map.1 hid'
  exact h.unused r hr (heq ▸ hid)

/-- Rules that a valid table accepts leave it valid. -/
theorem Valid.add {kept : Table} {added : List Rule} (h : Valid kept) (ha : Accepts kept added) :
    Valid (sorted (kept ++ added)) where
  increasing := increasing_sorted (ha.nodup_ids h.nodup_ids)
  positive r hr := by
    rw [(sorted_perm _).mem_iff, mem_append] at hr
    exact hr.elim (h.positive r) fun hr => Nat.pos_of_ne_zero (ha.nonzero r hr)
  readable r hr := by
    rw [(sorted_perm _).mem_iff, mem_append] at hr
    exact hr.elim (h.readable r) (ha.readable r)
  fits := by
    rw [(sorted_perm _).length_eq]
    exact ha.fits

/-- A valid table answers each request. -/
theorem Valid.exists_evaluate {t : Table} (h : Valid t) (q : Request) :
    ∃ best, t.evaluate q = .ok best :=
  let ⟨best, hbest, _⟩ := evaluate_isSome_iff h.readable q
  ⟨best, hbest⟩

end Table

/-! ### One transaction on an engine -/

namespace Engine

/-- What can come of a transaction: it is refused, or the table cannot be written, and then nothing
has changed; or the table is replaced. -/
theorem run_transact_cases (writable : Bool) (tx : Transaction) (e : Engine) :
    (Table.Accepts (e.table.survivors tx) tx.added ∧ CanWrite writable e ∧
      (transact writable tx).run e =
        (.ok (), e.holding (Table.sorted (e.table.survivors tx ++ tx.added)))) ∨
    (¬Table.Accepts (e.table.survivors tx) tx.added ∧
      ∃ fault, (transact writable tx).run e = (.error (.transaction fault), e)) ∨
    (¬CanWrite writable e ∧ (transact writable tx).run e = (.error .unavailable, e)) := by
  rw [run_transact, Table.apply, Table.remove_eq_survivors]
  cases hadd : Table.add (e.table.survivors tx) tx.added with
  | error fault =>
    refine .inr (.inl ⟨fun ha => ?_, fault, rfl⟩)
    rw [Table.add_eq_ok_iff.2 ⟨ha, rfl⟩] at hadd
    contradiction
  | ok table =>
    obtain ⟨ha, rfl⟩ := Table.add_eq_ok_iff.1 hadd
    by_cases hw : CanWrite writable e
    · exact .inl ⟨ha, hw, if_pos hw⟩
    · exact .inr (.inr ⟨hw, if_neg hw⟩)

/-- A transaction goes through exactly if the table accepts its rules and can be kept. -/
theorem run_transact_eq_ok_iff (writable : Bool) (tx : Transaction) (e : Engine) :
    ((transact writable tx).run e).1 = .ok () ↔
      Table.Accepts (e.table.survivors tx) tx.added ∧ CanWrite writable e := by
  obtain ⟨ha, hw, h⟩ | ⟨hno, fault, h⟩ | ⟨hno, h⟩ := run_transact_cases writable tx e
  · simp [h, ha, hw]
  · simp [h, hno]
  · simp [h, hno]

theorem perm_of_run_transact {writable : Bool} {tx : Transaction} {e : Engine}
    (hok : ((transact writable tx).run e).1 = .ok ()) :
    ((transact writable tx).run e).2.table ~ e.table.survivors tx ++ tx.added := by
  obtain ⟨-, -, h⟩ | ⟨-, fault, h⟩ | ⟨-, h⟩ := run_transact_cases writable tx e
  · rw [h]
    exact Table.sorted_perm _
  · rw [h] at hok
    contradiction
  · rw [h] at hok
    contradiction

theorem run_transact_of_error {writable : Bool} {tx : Transaction} {e : Engine} {cause : RuleError}
    (herr : ((transact writable tx).run e).1 = .error cause) :
    ((transact writable tx).run e).2 = e := by
  obtain ⟨-, -, h⟩ | ⟨-, fault, h⟩ | ⟨-, h⟩ := run_transact_cases writable tx e
  · rw [h] at herr
    contradiction
  · rw [h]
  · rw [h]

/-! ### Many transactions -/

theorem valid_transact {e : Engine} (h : e.table.Valid) (writable : Bool) (tx : Transaction) :
    ((transact writable tx).run e).2.table.Valid := by
  obtain ⟨ha, -, hrun⟩ | ⟨-, fault, hrun⟩ | ⟨-, hrun⟩ := run_transact_cases writable tx e
  · rw [hrun]
    exact (h.sublist (Table.survivors_sublist _ _)).add ha
  · rwa [hrun]
  · rwa [hrun]

/-- The engine after transactions, some of them while its file cannot be written. -/
def transactAll (e : Engine) (steps : List (Bool × Transaction)) : Engine :=
  steps.foldl (fun e step => ((transact step.1 step.2).run e).2) e

theorem valid_transactAll {e : Engine} (h : e.table.Valid) (steps : List (Bool × Transaction)) :
    (e.transactAll steps).table.Valid := by
  induction steps generalizing e with
  | nil => exact h
  | cons step steps ih => exact ih (valid_transact h step.1 step.2)

/-- Whatever transactions an engine has seen since its table was empty: its table is valid, so that it
answers each request. The next transaction goes through exactly if its rules are acceptable among the
rules that it leaves and the table can be kept; then these rules and no others are in the table, and
otherwise neither the table nor its file has changed. -/
theorem transactions_keep_valid (backing : Backing) (steps : List (Bool × Transaction)) :
    let e := transactAll ⟨[], backing⟩ steps
    e.table.Valid ∧
    (∀ q, ∃ best, e.table.evaluate q = .ok best) ∧
    ∀ writable tx,
      let out := (transact writable tx).run e
      (out.1 = .ok () ↔ Table.Accepts (e.table.survivors tx) tx.added ∧ CanWrite writable e) ∧
      (out.1 = .ok () → out.2.table ~ e.table.survivors tx ++ tx.added) ∧
      (∀ cause, out.1 = .error cause → out.2 = e) := by
  intro e
  have hvalid : e.table.Valid := valid_transactAll Table.valid_nil steps
  refine ⟨hvalid, hvalid.exists_evaluate, fun writable tx => ⟨?_, ?_, ?_⟩⟩
  · exact run_transact_eq_ok_iff writable tx e
  · exact perm_of_run_transact
  · exact fun cause => run_transact_of_error

end Engine
end MockRedirect
