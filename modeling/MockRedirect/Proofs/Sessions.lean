import Mathlib.Data.List.Perm.Basic
import MockRedirect.Proofs.Shared
/-! Sessions in a shared generator. A session passes from the task that created it to the generator,
from there to the task that takes it out, and is closed by that task. Each step hands on at most one
session, so that every session is in one of these places at a time. -/
namespace MockRedirect.Generator

/-- The session that a task has created and is to install. -/
def Task.fresh : Task Nat → List Nat
  | installing s => [s]
  | _ => []

/-- The session that a task has taken out and is to close. -/
def Task.leaving : Task Nat → List Nat
  | closing s _ => [s]
  | _ => []

theorem Task.fresh_afterSwap (old : Option Nat) (next : Readiness) : (afterSwap old next).fresh = [] := by
  cases old <;> rfl

theorem Task.leaving_afterSwap (old : Option Nat) (next : Readiness) :
    (afterSwap old next).leaving = old.toList := by
  cases old <;> rfl

theorem Task.Passes.no_sessions {t t' : Task Nat} (h : t.Passes t') :
    t.fresh = [] ∧ t.leaving = [] ∧ t'.fresh = [] ∧ t'.leaving = [] := by
  cases h with
  | available answer =>
    cases answer with
    | ok a => cases a <;> exact ⟨rfl, rfl, rfl, rfl⟩
    | error => exact ⟨rfl, rfl, rfl, rfl⟩
  | fetched answer => cases answer <;> exact ⟨rfl, rfl, rfl, rfl⟩
  | _ => exact ⟨rfl, rfl, rfl, rfl⟩

theorem Task.Stops.no_sessions {found : Bool} {t t' : Task Nat} (h : t.Stops found t') :
    t.fresh = [] ∧ t.leaving = [] ∧ t'.fresh = [] ∧ t'.leaving = [] := by
  cases h <;> exact ⟨rfl, rfl, rfl, rfl⟩

namespace Shared

variable {w w' : Shared} {t t' : Task Nat}

def fresh (w : Shared) : List Nat := w.jobs.flatMap (·.task.fresh)

def leaving (w : Shared) : List Nat := w.jobs.flatMap (·.task.leaving)

/-- All sessions of a generator, one place after the other. -/
def sessions (w : Shared) : List Nat := w.fresh ++ w.generator.session.toList ++ w.leaving ++ w.closed

/-- The sessions that were created and not yet closed. -/
def alive (w : Shared) : List Nat := (List.range w.created).filter (· ∉ w.closed)

/-- A step of a task hands a session on, or a session is created into its hands. -/
theorem perm_of_advances (h : w.Advances t t' w') :
    ∃ new, List.range w'.created = List.range w.created ++ new ∧
      (t'.fresh ++ w'.generator.session.toList ++ t'.leaving ++ w'.closed).Perm
        (t.fresh ++ w.generator.session.toList ++ t.leaving ++ w.closed ++ new) := by
  cases h with
  | pass h | stop h | miss h =>
    obtain ⟨hf, hl, hf', hl'⟩ := h.no_sessions
    exact ⟨[], by simp, by simp [hf, hl, hf', hl']⟩
  | create =>
    refine ⟨[w.created], List.range_succ, ?_⟩
    exact (List.perm_append_singleton w.created _).symm
  | install s =>
    refine ⟨[], by simp, ?_⟩
    rw [Task.fresh_afterSwap, Task.leaving_afterSwap]
    simp [Task.fresh, Task.leaving]
  | empty =>
    refine ⟨[], by simp, ?_⟩
    rw [Task.fresh_afterSwap, Task.leaving_afterSwap]
    simp [Task.fresh, Task.leaving]
  | close s next => exact ⟨[], by simp, by simp [Task.fresh, Task.leaving]⟩
  | settle next => exact ⟨[], by simp, by simp [Task.fresh, Task.leaving, settle]⟩
  | start => exact ⟨[], by simp, by simp [Task.fresh, Task.leaving]⟩
  | finish => exact ⟨[], by simp, by simp [Task.fresh, Task.leaving, endCall]⟩

/-- Every session that was created is in exactly one place. -/
def Kept (w : Shared) : Prop := w.sessions.Perm (List.range w.created)

theorem kept_step {m : Move} (hw : w.Kept) (h : w.step m = some w') : w'.Kept := by
  obtain ⟨errand, -, rfl⟩ | ⟨i, cue, j, t, u, -, hj, -, hadv, rfl⟩ := step_cases h
  · have hnone : errand.task.fresh = [] ∧ errand.task.leaving = [] := by cases errand <;> exact ⟨rfl, rfl⟩
    simpa [Kept, sessions, fresh, leaving, hnone] using hw
  · obtain ⟨new, hcreated, hperm⟩ := perm_of_advances hadv
    obtain ⟨pre, post, hjobs, hset⟩ := exists_jobs_split hj
    unfold Kept sessions fresh leaving at hw ⊢
    rw [hjobs] at hw
    rw [hset]
    rw [List.perm_iff_count] at hw hperm ⊢
    intro s
    have hs := hw s
    have hp := hperm s
    simp only [hcreated, List.flatMap_append, List.flatMap_cons, List.count_append] at hs hp ⊢
    omega

theorem Reachable.kept (hw : w.Reachable) : w.Kept :=
  hw.invariant (List.Perm.refl _) fun hv _ hs => kept_step hv hs

/-- Tasks that are done hold nothing. -/
theorem flatMap_of_done {f : Task Nat → List Nat} (hf : ∀ o, f (.done o) = [])
    (hdone : ∀ j ∈ w.jobs, ∃ o, j.task = .done o) : w.jobs.flatMap (f ·.task) = [] :=
  List.flatMap_eq_nil_iff.2 fun j hj => by
    obtain ⟨o, ho⟩ := hdone j hj
    rw [ho, hf]

/-- The sessions that are not closed are those in the other places. -/
theorem Kept.alive_perm (hw : w.Kept) :
    w.alive.Perm (w.fresh ++ w.generator.session.toList ++ w.leaving) := by
  have hnodup : w.sessions.Nodup := hw.nodup_iff.2 List.nodup_range
  have hfilter := hw.symm.filter (· ∉ w.closed)
  have hopen : (w.fresh ++ w.generator.session.toList ++ w.leaving).filter (· ∉ w.closed) =
      w.fresh ++ w.generator.session.toList ++ w.leaving :=
    List.filter_eq_self.2 fun s hs => by
      simpa using fun hc => (List.nodup_append.1 hnodup).2.2 s hs s hc rfl
  unfold sessions at hfilter
  rwa [List.filter_append, hopen, filter_notMem_self, List.append_nil] at hfilter

/-- Each session that was ever created is about to be installed, installed, about to be closed, or
closed: in one of these, and in one only. A session is closed at most once, and not while it is
installed, or after it was closed. When all tasks are done, no more than one session is open, which is
the installed one. -/
theorem sessions_perm_range (hw : w.Reachable) :
    (w.fresh ++ w.generator.session.toList ++ w.leaving ++ w.closed).Perm (List.range w.created) ∧
    w.closed.Nodup ∧
    (∀ s ∈ w.leaving, w.generator.session ≠ some s ∧ s ∉ w.closed) ∧
    (∀ s, w.generator.session = some s → s ∉ w.closed) ∧
    ((∀ j ∈ w.jobs, ∃ o, j.task = .done o) → w.alive = w.generator.session.toList ∧ w.alive.length ≤ 1) := by
  have hkept := hw.kept
  have hnodup : w.sessions.Nodup := hkept.nodup_iff.2 List.nodup_range
  unfold sessions at hnodup
  simp only [List.nodup_append, List.mem_append, Option.mem_toList] at hnodup
  obtain ⟨⟨⟨-, -, -⟩, -, hinstalled⟩, hclosed, hplaces⟩ := hnodup
  refine ⟨hkept, hclosed, fun s hs => ⟨fun hi => ?_, fun hc => ?_⟩, fun s hi hc => ?_, fun hdone => ?_⟩
  · exact hinstalled s (.inr hi) s hs rfl
  · exact hplaces s (.inr hs) s hc rfl
  · exact hplaces s (.inl (.inr hi)) s hc rfl
  · have halive := hkept.alive_perm
    have hfresh : w.fresh = [] := flatMap_of_done (fun _ => rfl) hdone
    have hleaving : w.leaving = [] := flatMap_of_done (fun _ => rfl) hdone
    rw [hfresh, hleaving, List.nil_append, List.append_nil] at halive
    cases hs : w.generator.session with
    | none =>
      rw [hs] at halive
      rw [halive.eq_nil]
      exact ⟨rfl, Nat.zero_le _⟩
    | some s =>
      rw [hs] at halive
      rw [List.perm_singleton.1 halive]
      exact ⟨rfl, Nat.le_refl _⟩

/-- Two probes open a session each, and the first of them is taken out by a destruction. -/
def overlappingProbes : List Move :=
  [.call .probe, .call .probe, .call .destroy, .go 0 (.availability (.ok .available)),
    .go 1 (.availability (.ok .available)), .go 0 .session, .go 1 .session, .go 0 .turn, .go 2 .turn,
    .go 2 .turn, .go 1 .turn, .go 0 .turn, .go 1 .turn, .go 2 .closed, .go 2 .turn]

theorem sessions_overlappingProbes :
    (∃ w : Shared, new.run (overlappingProbes.take 9) = some w ∧ w.fresh = [1] ∧
      w.generator.session = some 0) ∧
    ∃ w : Shared, new.run overlappingProbes = some w ∧ w.created = 2 ∧ w.closed = [0] ∧ w.alive = [1] := by
  refine ⟨⟨_, rfl, rfl, rfl⟩, _, rfl, rfl, rfl, ?_⟩
  refine ((sessions_perm_range (@reachable_of_run _ overlappingProbes rfl)).2.2.2.2 ?_).1
  exact List.forall_mem_cons.2 ⟨⟨_, rfl⟩, List.forall_mem_cons.2 ⟨⟨_, rfl⟩,
    List.forall_mem_singleton.2 ⟨_, rfl⟩⟩⟩

end Shared
end MockRedirect.Generator
