import Mathlib.Data.List.Induction
import Mathlib.Logic.Function.Iterate
import MockRedirect.Proofs.Call
import MockRedirect.Store.Race
/-! Two clients that change the mocks of one store at a time. Nothing keeps one from writing between what
the other reads and what it writes. If that happens, each call answers as if it were alone, and only one of
the changes is left in the end. If it does not, the calls come one after the other. -/
namespace MockRedirect
open Store

/-! ### Steps -/

namespace Pending

variable {α : Type} {p : Pending α} {n : Nat}

def IsDone : Pending α → Prop
  | done _ => True
  | _ => False

/-- The operation has read the entries for the last time, and is about to write. -/
def IsWriting : Pending α → Prop
  | commit (.ok _) => True
  | _ => False

/-- There are at most so many steps left, whatever is read. -/
def Within : Nat → Pending α → Prop
  | _, done _ => True
  | 0, _ => False
  | _ + 1, commit _ => True
  | n + 1, read next => ∀ es, (next es).Within n

theorem isDone_of_within (h : p.Within 0) : p.IsDone := by
  cases p with
  | done _ => trivial
  | _ => exact h

theorem Within.step (h : p.Within n) (writable : Bool) (s : Store) :
    (p.step writable s).1.Within (n - 1) := by
  cases n with
  | zero =>
    cases p with
    | done _ => trivial
    | _ => exact h.elim
  | succ n =>
    cases p with
    | read next => exact h s.entries
    | commit _ => cases n <;> trivial
    | done _ => cases n <;> trivial

theorem isDone_of_eq {answer : Except StoreError α} (h : p = .done answer) : p.IsDone := by
  rw [h]
  trivial

theorem not_isWriting_of_isDone (h : p.IsDone) : ¬p.IsWriting := by
  cases p with
  | done _ => exact id
  | _ => exact h.elim

end Pending

namespace Call

variable {c : Call} {es now : Members}

theorem within_pending (c : Call) : c.pending.Within 3 := by
  cases c with
  | _ => simp [pending, Pending.Within]

theorem plan_self (c : Call) (es : Members) : c.plan es es = c.operation es := by
  cases c with
  | _ => rfl

/-- Three steps are enough, and if nobody comes between them they are the call as it is run at once. -/
theorem steps_pending (writable : Bool) (c : Call) (s : Store) :
    (fun p : Pending c.Answer × Store => p.1.step writable p.2)^[3] (c.pending, s) =
      (.done (s.attempt writable c.operation).1, s.after writable c) := by
  rw [after, attempt_eq_commit]
  cases c with
  | _ => rfl

/-- What is read before matters only to a draft, and only if it would now get another id. -/
theorem plan_cases (c : Call) (before now : Members) : c.plan before now = c.operation now ∨
    ∃ d drawn, c = .saveDraft d drawn ∧
      d.toMock drawn (Records.ofEntries before).ids ≠ d.toMock drawn (Records.ofEntries now).ids := by
  cases c with
  | saveDraft d drawn =>
    by_cases h : d.toMock drawn (Records.ofEntries before).ids = d.toMock drawn (Records.ofEntries now).ids
    · exact .inl (congrArg (Mocks.save · now) h)
    · exact .inr ⟨d, drawn, rfl, h⟩
  | _ => exact .inl rfl

/-- The calls that read the list of mocks, change it and write it back. -/
def IsUpdate : Call → Prop
  | save _ | saveDraft _ _ | addAll _ _ | toggle _ | delete _ | updateVerb _ _ | updateUrl _ _
  | updateField _ _ _ | pushItem _ _ | removeItem _ _ _ => True
  | _ => False

theorem exists_records_of_operation {a : c.Answer} {new : Members} (hc : c.IsUpdate)
    (h : c.operation es = .ok (a, new)) : ∃ rs : Records, new = rs.toEntries := by
  cases writes_of_operation h with
  | records _ => exact ⟨_, rfl⟩
  | seed _ | setGlobal _ => exact hc.elim
  | read hr =>
    cases c with
    | list | get _ | globalEnabled => exact hc.elim
    | _ => exact hr.elim

/-- How far an update has come that does not miss a write: if it has read for the last time, it has found
the entries that are there `now`. At the start they were `old`. -/
inductive Stage (c : Call) (old now : Members) : Pending c.Answer → Prop
  | first : Stage c old now (.read fun before => .read fun es => .commit (c.plan before es))
  | last {before : Members} (h : before = old ∨ before = now) :
    Stage c old now (.read fun es => .commit (c.plan before es))
  | commit {before : Members} (h : before = old ∨ before = now) :
    Stage c old now (.commit (c.plan before now))

theorem stage_pending (hc : c.IsUpdate) (es : Members) : Stage c es es c.pending := by
  cases c with
  | saveDraft d drawn => exact .first
  | list | get _ | globalEnabled | seed | deleteAll | setGlobal _ => exact hc.elim
  | _ => exact .last (.inl rfl)

theorem Stage.read {old : Members} {next : Members → Pending c.Answer} (h : Stage c old now (.read next)) :
    Stage c old now (next now) := by
  cases h with
  | first => exact .last (.inr rfl)
  | last h => exact .commit h

theorem Stage.not_isDone {old : Members} {p : Pending c.Answer} (h : Stage c old now p) : ¬p.IsDone := by
  cases h <;> exact id

/-- Once the other client has written, a call that was about to write too does not notice it. -/
theorem Stage.cross {old : Members} {p : Pending c.Answer} (h : Stage c old old p) (now : Members) :
    (Stage c old now p ∧ ¬p.IsWriting) ∨ p = .commit (c.operation old) := by
  cases h with
  | first => exact .inl ⟨.first, id⟩
  | last h => exact .inl ⟨.last (.inl (h.elim id id)), id⟩
  | commit h =>
    obtain rfl := h.elim id id
    exact .inr (congrArg Pending.commit (plan_self c _))

end Call

/-! ### Stores on which the list was written -/

namespace Store

variable {s t : Store} {c : Call}

/-- The call would succeed if it were run at once. -/
def Admits (writable : Bool) (s : Store) (c : Call) : Prop := (s.attempt writable c.operation).1.isOk = true

theorem after_of_not_admits {writable : Bool} (h : ¬s.Admits writable c) : s.after writable c = s := by
  unfold Admits after at *
  obtain ⟨e, he⟩ | ⟨a, new, -, ha⟩ := Call.attempt_cases writable c s
  · rw [he]
  · rw [ha] at h
    exact absurd rfl h

theorem isWriting_of_admits {writable : Bool} (h : s.Admits writable c) :
    (Pending.commit (c.operation s.entries)).IsWriting := by
  rw [Admits, attempt_eq_commit] at h
  cases hop : c.operation s.entries with
  | ok _ => trivial
  | error _ =>
    rw [hop] at h
    contradiction

/-- The store, at most with another list of mocks. -/
inductive Relisted (s : Store) : Store → Prop
  | same : Relisted s s
  | other (rs : Records) : Relisted s (s.set rs.toEntries)

theorem Relisted.canWrite (h : Relisted s t) (writable : Bool) : CanWrite writable t ↔ CanWrite writable s := by
  cases h with
  | same => exact Iff.rfl
  | other rs =>
    obtain ⟨entries, backing, changes⟩ := s
    cases backing <;> simp [CanWrite, set, write, announce, Records.toEntries]

/-- A list that is written leaves nothing of the one before. -/
theorem Relisted.set_eq (h : Relisted s t) (rs : Records) :
    t.set rs.toEntries = { s.set rs.toEntries with changes := (t.set rs.toEntries).changes } := by
  cases h with
  | same => rfl
  | other rs' =>
    obtain ⟨entries, backing, changes⟩ := s
    cases backing <;> simp [set, write, announce, Records.toEntries, Members.putAll, Members.put_put]

/-- Whether a list is kept depends on the store and on its file alone, not on the list that is there. -/
theorem Relisted.commit_eq (h : Relisted s t) (writable : Bool) (a : α) (rs : Records) :
    t.commit writable (.ok (a, rs.toEntries)) =
      if CanWrite writable s then (.ok a, t.set rs.toEntries) else (.error .unavailable, t) := by
  have hnil : rs.toEntries ≠ [] := List.cons_ne_nil _ _
  simp only [commit, hnil, false_or, h.canWrite]

/-- An update leaves at most another list. -/
theorem relisted_after (hc : c.IsUpdate) (writable : Bool) (s : Store) : Relisted s (s.after writable c) := by
  rw [after, attempt_eq_commit]
  cases h : c.operation s.entries with
  | error e => exact .same
  | ok r =>
    obtain ⟨a, new⟩ := r
    obtain ⟨rs, rfl⟩ := Call.exists_records_of_operation hc h
    rw [Relisted.same.commit_eq]
    split
    · exact .other rs
    · exact .same

/-- An update that has read already does not mind if the list is another one by now: its answer is the
same, and what it writes leaves nothing of that list. -/
theorem Relisted.commit_update (h : Relisted s t) (hc : c.IsUpdate) (writable : Bool) :
    (t.commit writable (c.operation s.entries)).1 = (s.attempt writable c.operation).1 ∧
      (s.Admits writable c → (t.commit writable (c.operation s.entries)).2 = { s.after writable c with
        changes := (t.commit writable (c.operation s.entries)).2.changes }) ∧
      (¬s.Admits writable c → (t.commit writable (c.operation s.entries)).2 = t) := by
  unfold Admits after
  rw [attempt_eq_commit]
  cases hop : c.operation s.entries with
  | error e => exact ⟨rfl, nofun, fun _ => rfl⟩
  | ok r =>
    obtain ⟨a, new⟩ := r
    obtain ⟨rs, rfl⟩ := Call.exists_records_of_operation hc hop
    rw [h.commit_eq, Relisted.same.commit_eq]
    split
    · exact ⟨rfl, fun _ => h.set_eq rs, fun hne => absurd rfl hne⟩
    · exact ⟨rfl, nofun, fun _ => rfl⟩

end Store

/-! ### Two calls -/

theorem Client.exists_ne (i : Client) : ∃ k, i ≠ k := by
  cases i with
  | one => exact ⟨two, nofun⟩
  | two => exact ⟨one, nofun⟩

theorem Client.eq_or_eq {i k : Client} (h : i ≠ k) (j : Client) : j = i ∨ j = k := by
  cases i <;> cases k <;> cases j <;> simp_all

theorem Client.forall_of_ne {motive : Client → Prop} {i k : Client} (h : i ≠ k) (hi : motive i) (hk : motive k) :
    ∀ j, motive j := by
  intro j
  obtain rfl | rfl := eq_or_eq h j
  · exact hi
  · exact hk

namespace Race

variable {c : Client → Call} {r : Race c} {writable : Client → Bool} {s : Store} {i j k : Client}

theorem pending_turn_self (writable : Client → Bool) (r : Race c) (i : Client) :
    (r.turn writable i).pending i = ((r.pending i).step (writable i) r.store).1 :=
  Function.update_self ..

theorem pending_turn_of_ne (h : j ≠ i) (writable : Client → Bool) (r : Race c) :
    (r.turn writable i).pending j = r.pending j :=
  Function.update_of_ne h ..

theorem store_turn (writable : Client → Bool) (r : Race c) (i : Client) :
    (r.turn writable i).store = ((r.pending i).step (writable i) r.store).2 := rfl

theorem turn_of_isDone (h : (r.pending i).IsDone) : r.turn writable i = r := by
  have hstep : (r.pending i).step (writable i) r.store = (r.pending i, r.store) := by
    cases hp : r.pending i with
    | done a => rfl
    | _ =>
      rw [hp] at h
      exact h.elim
  unfold turn
  rw [hstep]
  exact congrArg (Race.mk r.store) (Function.update_eq_self ..)

theorem turn_commit (writable : Client → Bool)
    {result : Except StoreError ((c i).Answer × Members)} (h : r.pending i = .commit result) :
    (r.turn writable i).pending i = .done (r.store.commit (writable i) result).1 ∧
      (r.turn writable i).store = (r.store.commit (writable i) result).2 := by
  rw [pending_turn_self, store_turn, h]
  exact ⟨rfl, rfl⟩

theorem isDone_turn (h : (r.pending i).IsDone) (j : Client) : ((r.turn writable j).pending i).IsDone := by
  by_cases hj : i = j
  · rw [← hj, turn_of_isDone h]
    exact h
  · rw [pending_turn_of_ne hj]
    exact h

theorem turn_read (writable : Client → Bool) {next : Members → Pending (c i).Answer}
    (h : r.pending i = .read next) :
    (r.turn writable i).pending i = next r.store.entries ∧ (r.turn writable i).store = r.store := by
  rw [pending_turn_self, store_turn, h]
  exact ⟨rfl, rfl⟩

theorem run_append_singleton (writable : Client → Bool) (r : Race c) (turns : List Client) (i : Client) :
    r.run writable (turns ++ [i]) = (r.run writable turns).turn writable i :=
  List.foldl_append

/-- Each turn of a client brings its call closer to the end. -/
theorem within_run {n : Client → Nat} (h : ∀ i, (r.pending i).Within (n i)) (turns : List Client) (i : Client) :
    ((r.run writable turns).pending i).Within (n i - turns.count i) := by
  induction turns generalizing r n with
  | nil => exact h i
  | cons k turns ih =>
    have hturn : ∀ j, ((r.turn writable k).pending j).Within (n j - [k].count j) := by
      intro j
      by_cases hj : j = k
      · rw [hj, pending_turn_self, List.count_singleton_self]
        exact (h k).step _ _
      · rw [pending_turn_of_ne hj, List.count_singleton, beq_false_of_ne (Ne.symm hj)]
        exact h j
    have hrun := ih hturn
    rwa [Nat.sub_sub, ← List.count_append] at hrun

/-! ### What may become of two updates -/

/-- The call of `i` has come to its end before the operation `op` of `k` began. -/
structure InOrder (writable : Client → Bool) (s : Store) (r : Race c) (i k : Client)
    (op : Store.Operation (c k).Answer) : Prop where
  ne : i ≠ k
  first : r.pending i = .done (s.attempt (writable i) (c i).operation).1
  second : r.pending k = .done ((s.after (writable i) (c i)).attempt (writable k) op).1
  store : r.store = ((s.after (writable i) (c i)).attempt (writable k) op).2

/-- Each call has answered as if it were alone, and what is stored is what that of `i` leaves alone. -/
structure Lost (writable : Client → Bool) (s : Store) (r : Race c) (i : Client) : Prop where
  answers : ∀ j, r.pending j = .done (s.attempt (writable j) (c j).operation).1
  store : r.store = { s.after (writable i) (c i) with changes := r.store.changes }

/-- At some time both clients have read for the last time and are about to write. -/
def Crossed (writable : Client → Bool) (r : Race c) (turns : List Client) : Prop :=
  ∃ early, early <+: turns ∧ ∀ i, ((r.run writable early).pending i).IsWriting

theorem crossed_append_singleton (writable : Client → Bool) (r : Race c) (turns : List Client) (i : Client) :
    r.Crossed writable (turns ++ [i]) ↔ r.Crossed writable turns ∨
      ∀ j, (((r.run writable turns).turn writable i).pending j).IsWriting := by
  constructor
  · rintro ⟨early, hearly, hboth⟩
    obtain rfl | hearly := List.prefix_concat_iff.1 hearly
    · rw [run_append_singleton] at hboth
      exact .inr hboth
    · exact .inl ⟨early, hearly, hboth⟩
  · rintro (⟨early, hearly, hboth⟩ | hboth)
    · exact ⟨early, hearly.trans (List.prefix_append ..), hboth⟩
    · refine ⟨turns ++ [i], List.prefix_rfl, ?_⟩
      rwa [run_append_singleton]

/-- What becomes of two updates: one of them is lost if they have crossed and neither fails, and otherwise
one comes after the other. A draft that is saved second may have been looked at before. -/
structure Settled (writable : Client → Bool) (s : Store) (crossed : Prop) (r : Race c) : Prop where
  lost : crossed → (∀ j, s.Admits (writable j) (c j)) → ∃ i, Lost writable s r i
  inOrder : ¬(crossed ∧ ∀ j, s.Admits (writable j) (c j)) → ∃ i k before,
    (before = s.entries ∨ before = (s.after (writable i) (c i)).entries) ∧
      InOrder writable s r i k ((c k).plan before)

/-- How far two updates have come, and how the first of them has ended. -/
inductive Course (writable : Client → Bool) (s : Store) (crossed : Prop) (r : Race c) : Prop
  | reading (hstore : r.store = s) (hstage : ∀ i, (c i).Stage s.entries s.entries (r.pending i))
    (hcrossed : crossed ↔ ∀ i, (r.pending i).IsWriting)
  | apart {i k : Client} (hne : i ≠ k) (hstore : r.store = s.after (writable i) (c i))
    (hfirst : r.pending i = .done (s.attempt (writable i) (c i).operation).1)
    (hstage : (c k).Stage s.entries r.store.entries (r.pending k)) (hcrossed : ¬crossed)
  | late {i k : Client} (hne : i ≠ k) (hstore : r.store = s.after (writable i) (c i))
    (hfirst : r.pending i = .done (s.attempt (writable i) (c i).operation).1)
    (hlast : r.pending k = .commit ((c k).operation s.entries))
    (hcrossed : (∀ j, s.Admits (writable j) (c j)) → crossed)
  | ended (hdone : ∀ i, (r.pending i).IsDone) (hsettled : Settled writable s crossed r)

/-! ### The steps of two updates -/

theorem attempt_plan (w : Bool) (d : Call) (s : Store) :
    s.attempt w (d.plan s.entries) = s.attempt w d.operation := by
  rw [attempt_eq_commit, attempt_eq_commit, Call.plan_self]

section
variable (hc : ∀ i, (c i).IsUpdate) (hne : i ≠ k) (hstore : r.store = s.after (writable i) (c i))
  (hfirst : r.pending i = .done (s.attempt (writable i) (c i).operation).1)
  (hlast : r.pending k = .commit ((c k).operation s.entries))
include hc hne hstore hfirst hlast

/-- Both calls had read before the first of them wrote; now the second one writes over it. -/
theorem lost_of_late (hadmits : ∀ j, s.Admits (writable j) (c j)) :
    Lost writable s (r.turn writable k) k := by
  have hlisted : Relisted s r.store := hstore ▸ relisted_after (hc i) (writable i) s
  obtain ⟨hanswer, hwrites, -⟩ := hlisted.commit_update (hc k) (writable k)
  obtain ⟨hk, hafter⟩ := turn_commit writable hlast
  constructor
  · refine Client.forall_of_ne hne ?_ ?_
    · rw [pending_turn_of_ne hne, hfirst]
    · rw [hk, hanswer]
  · rw [hafter]
    exact hwrites (hadmits k)

/-- If one of the two fails, it may as well have been the first one. -/
theorem inOrder_of_late (hnot : ¬∀ j, s.Admits (writable j) (c j)) :
    ∃ i' k', InOrder writable s (r.turn writable k) i' k' ((c k').plan s.entries) := by
  have hlisted : Relisted s r.store := hstore ▸ relisted_after (hc i) (writable i) s
  obtain ⟨hanswer, -, hfails⟩ := hlisted.commit_update (hc k) (writable k)
  obtain ⟨hk, hafter⟩ := turn_commit writable hlast
  have hi : (r.turn writable k).pending i = .done (s.attempt (writable i) (c i).operation).1 := by
    rw [pending_turn_of_ne hne, hfirst]
  by_cases hadmits : s.Admits (writable i) (c i)
  · have hfail : ¬s.Admits (writable k) (c k) := fun h => hnot (Client.forall_of_ne hne hadmits h)
    have hsame := after_of_not_admits hfail
    refine ⟨k, i, hne.symm, by rw [hk, hanswer], by rw [hi, hsame, attempt_plan], ?_⟩
    rw [hafter, hfails hfail, hsame, attempt_plan, hstore]
    rfl
  · have hsame := after_of_not_admits hadmits
    rw [hstore, hsame, ← attempt_eq_commit] at hk hafter
    exact ⟨i, k, hne, hi, by rw [hk, hsame, attempt_plan], by rw [hafter, hsame, attempt_plan]⟩

theorem course_of_late {crossed : Prop} (hcrossed : (∀ j, s.Admits (writable j) (c j)) → crossed) :
    Course writable s crossed (r.turn writable k) := by
  refine .ended (Client.forall_of_ne hne (isDone_turn (Pending.isDone_of_eq hfirst) k)
    (Pending.isDone_of_eq (turn_commit writable hlast).1)) ⟨fun _ hadmits => ?_, fun hnot => ?_⟩
  · exact ⟨k, lost_of_late hc hne hstore hfirst hlast hadmits⟩
  · obtain ⟨i', k', horder⟩ := inOrder_of_late hc hne hstore hfirst hlast fun hadmits =>
      hnot ⟨hcrossed hadmits, hadmits⟩
    exact ⟨i', k', s.entries, .inl rfl, horder⟩

end

variable {crossed : Prop}

theorem not_both_of_isDone (h : (r.pending i).IsDone) : ¬∀ j, (r.pending j).IsWriting :=
  fun hboth => Pending.not_isWriting_of_isDone h (hboth i)

/-- As long as nothing is written, calls go on by themselves; one that writes leaves the other behind. -/
theorem course_of_reading (hstore : r.store = s)
    (hstage : ∀ i, (c i).Stage s.entries s.entries (r.pending i))
    (hcrossed : crossed ↔ ∀ i, (r.pending i).IsWriting) (i : Client) :
    Course writable s (crossed ∨ ∀ j, ((r.turn writable i).pending j).IsWriting) (r.turn writable i) := by
  have hi := hstage i
  cases hp : r.pending i with
  | read next =>
    rw [hp] at hi
    obtain ⟨hnext, hsame⟩ := turn_read writable hp
    refine .reading (hsame.trans hstore) (fun j => ?_) (or_iff_right fun h => ?_)
    · by_cases hj : j = i
      · rw [hj, hnext, hstore]
        exact hi.read
      · rw [pending_turn_of_ne hj]
        exact hstage j
    · have hwriting := hcrossed.1 h i
      rw [hp] at hwriting
      exact hwriting
  | commit result =>
    have hresult : result = (c i).operation s.entries := by
      rw [hp] at hi
      cases hi with
      | commit h => rw [h.elim id id, Call.plan_self]
    obtain ⟨hfirst, hafter⟩ := turn_commit writable hp
    rw [hresult, hstore, ← attempt_eq_commit] at hfirst hafter
    have hended : ¬∀ j, ((r.turn writable i).pending j).IsWriting :=
      not_both_of_isDone (Pending.isDone_of_eq hfirst)
    obtain ⟨k, hne⟩ := Client.exists_ne i
    have hk : (r.turn writable i).pending k = r.pending k := pending_turn_of_ne hne.symm ..
    rw [or_iff_left hended]
    obtain ⟨hstage', hreads⟩ | hlate := (hstage k).cross (r.turn writable i).store.entries
    · refine .apart hne hafter hfirst (hk ▸ hstage') fun h => hreads (hcrossed.1 h k)
    · refine .late hne hafter hfirst (hk.trans hlate) fun hadmits => hcrossed.2 ?_
      refine Client.forall_of_ne hne ?_ ?_
      · rw [hp, hresult]
        exact isWriting_of_admits (hadmits i)
      · rw [hlate]
        exact isWriting_of_admits (hadmits k)
  | done _ =>
    rw [hp] at hi
    contradiction

/-- A call that reads for the last time after the other one has ended comes after it. -/
theorem course_of_apart (hne : i ≠ k) (hstore : r.store = s.after (writable i) (c i))
    (hfirst : r.pending i = .done (s.attempt (writable i) (c i).operation).1)
    (hstage : (c k).Stage s.entries r.store.entries (r.pending k)) (hcrossed : ¬crossed) :
    Course writable s crossed (r.turn writable k) := by
  have hfirst' : (r.turn writable k).pending i = .done (s.attempt (writable i) (c i).operation).1 := by
    rw [pending_turn_of_ne hne, hfirst]
  cases hp : r.pending k with
  | read next =>
    obtain ⟨hnext, hsame⟩ := turn_read writable hp
    rw [hp] at hstage
    refine .apart hne (hsame.trans hstore) hfirst' ?_ hcrossed
    rw [hnext, hsame]
    exact hstage.read
  | commit result =>
    obtain ⟨hlast, hafter⟩ := turn_commit writable hp
    rw [hp] at hstage
    cases hstage with
    | @commit before hbefore =>
      rw [← attempt_eq_commit, hstore] at hlast hafter
      rw [hstore] at hbefore
      have hdone : ∀ j, ((r.turn writable k).pending j).IsDone :=
        Client.forall_of_ne hne (Pending.isDone_of_eq hfirst') (Pending.isDone_of_eq hlast)
      exact .ended hdone ⟨fun h => absurd h hcrossed,
        fun _ => ⟨i, k, before, hbefore, hne, hfirst', hlast, hafter⟩⟩
  | done _ =>
    rw [hp] at hstage
    contradiction

/-- Whatever step comes next, the calls stay on one of these courses. -/
theorem Course.turn (hc : ∀ i, (c i).IsUpdate) (h : Course writable s crossed r) (j : Client) :
    Course writable s (crossed ∨ ∀ i, ((r.turn writable j).pending i).IsWriting) (r.turn writable j) := by
  have hidle (i : Client) (hdone : (r.pending i).IsDone) :
      ¬∀ k, ((r.turn writable j).pending k).IsWriting := not_both_of_isDone (isDone_turn hdone j)
  cases h with
  | reading hstore hstage hcrossed => exact course_of_reading hstore hstage hcrossed j
  | @apart i k hne hstore hfirst hstage hcrossed =>
    have hended : (r.pending i).IsDone := Pending.isDone_of_eq hfirst
    rw [or_iff_left (hidle i hended)]
    obtain rfl | rfl := Client.eq_or_eq hne j
    · rw [turn_of_isDone hended]
      exact .apart hne hstore hfirst hstage hcrossed
    · exact course_of_apart hne hstore hfirst hstage hcrossed
  | @late i k hne hstore hfirst hlast hcrossed =>
    have hended : (r.pending i).IsDone := Pending.isDone_of_eq hfirst
    rw [or_iff_left (hidle i hended)]
    obtain rfl | rfl := Client.eq_or_eq hne j
    · rw [turn_of_isDone hended]
      exact .late hne hstore hfirst hlast hcrossed
    · exact course_of_late hc hne hstore hfirst hlast hcrossed
  | ended hdone hsettled =>
    rw [or_iff_left (hidle j (hdone j)), turn_of_isDone (hdone j)]
    exact .ended hdone hsettled

theorem course_run (hc : ∀ i, (c i).IsUpdate) (writable : Client → Bool) (s : Store) (turns : List Client) :
    Course writable s ((start c s).Crossed writable turns) ((start c s).run writable turns) := by
  induction turns using List.reverseRecOn with
  | nil =>
    refine .reading rfl (fun i => Call.stage_pending (hc i) s.entries) ?_
    simp [Crossed]
  | append_singleton turns i ih =>
    rw [crossed_append_singleton, run_append_singleton]
    exact ih.turn hc i

theorem Course.settled (h : Course writable s crossed r) (hdone : ∀ i, (r.pending i).IsDone) :
    Settled writable s crossed r := by
  cases h with
  | reading _ hstage _ => exact absurd (hdone .one) (hstage .one).not_isDone
  | @apart i k _ _ _ hstage _ => exact absurd (hdone k) hstage.not_isDone
  | @late i k _ _ _ hlast _ =>
    have hk := hdone k
    rw [hlast] at hk
    exact hk.elim
  | ended _ hsettled => exact hsettled

theorem InOrder.congr {op op' : Store.Operation (c k).Answer} (h : InOrder writable s r i k op)
    (heq : op (s.after (writable i) (c i)).entries = op' (s.after (writable i) (c i)).entries) :
    InOrder writable s r i k op' := by
  have hsame : (s.after (writable i) (c i)).attempt (writable k) op =
      (s.after (writable i) (c i)).attempt (writable k) op' := by
    rw [attempt_eq_commit, attempt_eq_commit, heq]
  exact ⟨h.ne, h.first, by rw [h.second, hsame], by rw [h.store, hsame]⟩

/-- Two updates that take their steps in any order. If both were about to write at some time, and neither
fails, both answer as if they were alone, and one of them is lost. If not, one comes after the other; but a
draft may be saved under an id that was chosen before the other call wrote, where it would now get another
one. -/
theorem lost_or_inOrder_of_turns (hc : ∀ i, (c i).IsUpdate) (writable : Client → Bool) (s : Store)
    (turns : List Client) :
    let r := (start c s).run writable turns
    let lost := (start c s).Crossed writable turns ∧ ∀ i, s.Admits (writable i) (c i)
    ((∀ i, 3 ≤ turns.count i) → ∀ i, (r.pending i).IsDone) ∧
      ((∀ i, (r.pending i).IsDone) →
        (lost → ∃ i, Lost writable s r i) ∧
        (¬lost → ∃ i k, InOrder writable s r i k (c k).operation ∨
          ∃ d drawn, c k = .saveDraft d drawn ∧
            d.toMock drawn (Records.ofEntries s.entries).ids ≠
              d.toMock drawn (Records.ofEntries (s.after (writable i) (c i)).entries).ids ∧
            InOrder writable s r i k ((c k).plan s.entries))) := by
  intro r lost
  constructor
  · intro hcount i
    have hwithin : (r.pending i).Within (3 - turns.count i) :=
      within_run (n := fun _ => 3) (fun i => Call.within_pending (c i)) turns i
    rw [Nat.sub_eq_zero_of_le (hcount i)] at hwithin
    exact Pending.isDone_of_within hwithin
  · intro hdone
    have hsettled := (course_run hc writable s turns).settled hdone
    refine ⟨fun h => hsettled.lost h.1 h.2, fun h => ?_⟩
    obtain ⟨i, k, before, hbefore, horder⟩ := hsettled.inOrder h
    refine ⟨i, k, ?_⟩
    obtain rfl | rfl := hbefore
    · obtain hsame | ⟨d, drawn, hd, hid⟩ := Call.plan_cases (c k) s.entries (s.after (writable i) (c i)).entries
      · exact .inl (horder.congr hsame)
      · exact .inr ⟨d, drawn, hd, hid, horder⟩
    · exact .inl (horder.congr (Call.plan_self (c k) _))

/-- A mock for the examples below. -/
def plainMock (id : Int) : Mock := ⟨⟨id⟩, "", "/a?MT=GET", .get, .int 0, false⟩

/-- Two mocks are saved. -/
def twoSaves : Client → Call
  | .one => .save (plainMock 1)
  | .two => .save (plainMock 2)

/-- A draft is saved, and a mock that has the id drawn for the draft. -/
def draftAndSave : Client → Call
  | .one => .saveDraft ⟨none, "", "/a?MT=GET", .get, .int 0, .int 0⟩ ⟨1⟩
  | .two => .save (plainMock 1)

theorem lost_or_inOrder_of_twoSaves :
    let r := start twoSaves .inMemory
    (∃ i, Lost (fun _ => true) .inMemory (r.run (fun _ => true) [.one, .two, .one, .two, .one, .two]) i) ∧
      ∃ i k, InOrder (fun _ => true) .inMemory
        (r.run (fun _ => true) [.one, .one, .one, .two, .two, .two]) i k (twoSaves k).operation := by
  intro r
  have hupdates : ∀ i, (twoSaves i).IsUpdate := fun i => by cases i <;> trivial
  have hadmits : ∀ i, Store.inMemory.Admits true (twoSaves i) := fun i => by cases i <;> rfl
  have hcross := lost_or_inOrder_of_turns hupdates (fun _ => true) .inMemory
    [.one, .two, .one, .two, .one, .two]
  have hserial := lost_or_inOrder_of_turns hupdates (fun _ => true) .inMemory
    [.one, .one, .one, .two, .two, .two]
  constructor
  · have hdone := hcross.1 fun i => by cases i <;> decide
    refine (hcross.2 hdone).1 ⟨⟨[.one, .two], by decide, fun i => ?_⟩, hadmits⟩
    cases i <;> trivial
  · have hdone := hserial.1 fun i => by cases i <;> decide
    have hapart : ¬r.Crossed (fun _ => true) [.one, .one, .one, .two, .two, .two] := by
      rintro ⟨early, hearly, hboth⟩
      simp only [List.prefix_cons_iff, List.prefix_nil] at hearly
      obtain rfl | ⟨_, rfl, rfl | ⟨_, rfl, rfl | ⟨_, rfl, rfl | ⟨_, rfl, rfl | ⟨_, rfl, rfl | ⟨_, rfl, rfl⟩⟩⟩⟩⟩⟩ :=
        hearly
      -- as long as the first call is under way the second one is not about to write
      iterate 4 exact hboth .two
      iterate 3 exact hboth .one
    obtain ⟨i, k, h | ⟨d, drawn, hd, -⟩⟩ := (hserial.2 hdone).2 fun h => hapart h.1
    · exact ⟨i, k, h⟩
    · cases k <;> contradiction

/-- What is left here is left by neither order: one of the two saves is gone, and the draft has taken the
place of the mock. -/
theorem no_order_of_twoSaves_draftAndSave :
    let r := (start twoSaves .inMemory).run (fun _ => true) [.one, .two, .one, .two]
    let r' := (start draftAndSave .inMemory).run (fun _ => true) [.one, .two, .two, .one, .one]
    ((∀ i, (r.pending i).IsDone) ∧ ∀ i k, i ≠ k → Records.stored r.store.entries ≠
      Records.stored ((Store.inMemory.after true (twoSaves i)).after true (twoSaves k)).entries) ∧
    (∀ i, (r'.pending i).IsDone) ∧ ∀ i k, i ≠ k → Records.stored r'.store.entries ≠
      Records.stored ((Store.inMemory.after true (draftAndSave i)).after true (draftAndSave k)).entries := by
  intro r r'
  refine ⟨⟨fun i => ?_, fun i k hne h => ?_⟩, fun i => ?_, fun i k hne h => ?_⟩
  · cases i <;> trivial
  · have hlength := congrArg List.length h
    cases i <;> cases k
    · exact hne rfl
    · revert hlength
      decide +kernel
    · revert hlength
      decide +kernel
    · exact hne rfl
  · cases i <;> trivial
  · have henabled := congrArg (fun vs => (Records.mocks (vs.map Record.ofJson)).map (·.enabled)) h
    cases i <;> cases k
    · exact hne rfl
    · revert henabled
      decide +kernel
    · revert henabled
      decide +kernel
    · exact hne rfl

end Race
end MockRedirect
