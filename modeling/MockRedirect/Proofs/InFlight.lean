import Mathlib.Data.List.Nodup
import MockRedirect.Proofs.Shared
/-! The call in flight. A generator has one place for it, which each call takes when it starts, and
which cancellations and calls that end make free. In whatever order these steps come, the place holds
the newest call for exactly as long as that call runs. -/
namespace MockRedirect.Generator

/-- The call that a task is part of. -/
def Task.call? : Task Nat → Option Nat
  | asking call _ _ => some call
  | waiting call => some call
  | ending call _ => some call
  | _ => none

/-- A generator that fits what has happened to the calls. -/
structure History.Fits (h : History) (g : Generator Nat) : Prop where
  started : h.started = (List.range g.nextCall).reverse
  inFlight : ∀ call, g.inFlight = some call ↔ h.Running call
  ended_lt : ∀ call ∈ h.ended, call < g.nextCall
  stopped_lt : ∀ call ∈ h.stopped, call < g.nextCall
  stopped : ∀ call ∈ g.stopped, call ∈ h.stopped

theorem Task.call?_afterSwap (old : Option Nat) (next : Readiness) : (afterSwap old next).call? = none := by
  cases old <;> rfl

theorem Task.Passes.call? {t t' : Task Nat} (h : t.Passes t') : t'.call? = t.call? ∨ t'.call? = none := by
  cases h with
  | available answer =>
    refine .inr ?_
    cases answer with
    | ok a => cases a <;> rfl
    | error => rfl
  | fetched answer =>
    refine .inr ?_
    cases answer <;> rfl
  | refused | rejected => exact .inr rfl
  | sent | answered => exact .inl rfl

theorem Task.Stops.call? {found : Bool} {t t' : Task Nat} (h : t.Stops found t') : t'.call? = none := by
  cases h <;> rfl

namespace History.Fits

variable {h : History} {g : Generator Nat} {call : Nat}

theorem new : (⟨[], [], []⟩ : History).Fits .new where
  started := rfl
  inFlight _ := ⟨nofun, nofun⟩
  ended_lt := nofun
  stopped_lt := nofun
  stopped := nofun

theorem nodup (hf : h.Fits g) : h.started.Nodup := by
  rw [hf.started]
  exact List.pairwise_reverse.2 (List.nodup_range.imp Ne.symm)

theorem lt_of_running (hf : h.Fits g) (hr : h.Running call) : call < g.nextCall := by
  have hmem := List.mem_of_head? hr.1
  rw [hf.started, List.mem_reverse] at hmem
  exact List.mem_range.1 hmem

/-- A new call takes the place in flight, whichever call had it. -/
theorem start (hf : h.Fits g) :
    ({ h with started := g.nextCall :: h.started } : History).Fits
      { g with inFlight := some g.nextCall, nextCall := g.nextCall + 1 } where
  started := by rw [List.range_succ, List.reverse_append, ← hf.started]; rfl
  inFlight call := by
    refine ⟨fun hc => ?_, fun hr => hr.1⟩
    cases hc
    exact ⟨rfl, fun he => Nat.lt_irrefl _ (hf.ended_lt _ he), fun hs => Nat.lt_irrefl _ (hf.stopped_lt _ hs)⟩
  ended_lt call hc := Nat.lt_succ_of_lt (hf.ended_lt call hc)
  stopped_lt call hc := Nat.lt_succ_of_lt (hf.stopped_lt call hc)
  stopped := hf.stopped

/-- A call that ends leaves the place in flight to whichever other call has it. -/
theorem inFlight_endCall (g : Generator Nat) (call other : Nat) :
    (g.endCall call).inFlight = some other ↔ g.inFlight = some other ∧ other ≠ call := by
  unfold endCall
  split
  · next hc => simp [hc, eq_comm]
  · next hc => exact ⟨fun ho => ⟨ho, fun he => hc (he ▸ ho)⟩, And.left⟩

theorem finish (hf : h.Fits g) (hlt : call < g.nextCall) :
    ({ h with ended := call :: h.ended } : History).Fits (g.endCall call) where
  started := hf.started
  inFlight other := by
    rw [inFlight_endCall, hf.inFlight]
    simp only [History.Running, List.mem_cons, not_or]
    exact ⟨fun ⟨⟨hnew, he, hs⟩, hne⟩ => ⟨hnew, ⟨hne, he⟩, hs⟩,
      fun ⟨hnew, ⟨hne, he⟩, hs⟩ => ⟨⟨hnew, he, hs⟩, hne⟩⟩
  ended_lt := List.forall_mem_cons.2 ⟨hlt, hf.ended_lt⟩
  stopped_lt := hf.stopped_lt
  stopped other ho := hf.stopped other (List.mem_filter.1 ho).1

/-- The call in flight has not been told to stop before. -/
theorem notMem_stopped (hf : h.Fits g) (hcall : g.inFlight = some call) : call ∉ g.stopped :=
  fun hs => ((hf.inFlight call).1 hcall).2.2 (hf.stopped call hs)

theorem stop (hf : h.Fits g) (hcall : g.inFlight = some call) :
    ({ h with stopped := [call].filter (· ∉ g.stopped) ++ h.stopped } : History).Fits
      { g with inFlight := none, stopped := call :: g.stopped } := by
  have hnew : [call].filter (· ∉ g.stopped) = [call] := by simp [hf.notMem_stopped hcall]
  have hr := (hf.inFlight call).1 hcall
  rw [hnew]
  exact {
    started := hf.started
    inFlight := fun other => by
      refine ⟨nofun, fun ho => ?_⟩
      -- Only the newest call could go on, and that is the one that was told to stop.
      have hsame : other = call := Option.some.inj (ho.1.symm.trans hr.1)
      exact absurd (hsame ▸ List.mem_cons_self) ho.2.2
    ended_lt := hf.ended_lt
    stopped_lt := List.forall_mem_cons.2 ⟨hf.lt_of_running hr, hf.stopped_lt⟩
    stopped := List.forall_mem_cons.2 ⟨List.mem_cons_self, fun c hc => List.mem_cons_of_mem _ (hf.stopped c hc)⟩ }

end History.Fits

namespace Shared

variable {w w' : Shared} {t t' : Task Nat}

theorem fits_of_advances (hf : w.history.Fits w.generator)
    (ht : ∀ call ∈ t.call?, call < w.generator.nextCall) (h : w.Advances t t' w') :
    w'.history.Fits w'.generator := by
  cases h with
  | pass | create | close | miss => exact hf
  | install | empty | settle => exact { hf with }
  | start => exact hf.start
  | finish call reply => exact hf.finish (ht call rfl)
  | stop _ hcall => exact hf.stop hcall

theorem nextCall_le_of_advances (h : w.Advances t t' w') : w.generator.nextCall ≤ w'.generator.nextCall := by
  cases h with
  | start => exact Nat.le_succ _
  | _ => exact Nat.le_refl _

/-- A task stays with its call until the call is over, and gets a new one at most. -/
theorem call?_of_advances (h : w.Advances t t' w') : t'.call? = t.call? ∨ t'.call? = none ∨
    t.call? = none ∧ t'.call? = some w.generator.nextCall ∧ w.generator.nextCall < w'.generator.nextCall := by
  cases h with
  | pass h => exact h.call?.imp_right .inl
  | start => exact .inr (.inr ⟨rfl, rfl, Nat.lt_succ_self _⟩)
  | install | empty => exact .inr (.inl (Task.call?_afterSwap _ _))
  | stop h | miss h => exact .inr (.inl h.call?)
  | create | close | settle | finish => exact .inr (.inl rfl)

/-- The calls that the tasks are part of. -/
def calls (w : Shared) : List Nat := w.jobs.flatMap (·.task.call?.toList)

/-- The history fits, and each call that has started is the call of one task at most. -/
structure Numbered (w : Shared) : Prop where
  fits : w.history.Fits w.generator
  once : ∀ call, w.calls.count call ≤ if call < w.generator.nextCall then 1 else 0

theorem Numbered.lt (hw : w.Numbered) {j : Job} {call : Nat} (hj : j ∈ w.jobs) (hc : call ∈ j.task.call?) :
    call < w.generator.nextCall := by
  have hpos : 0 < w.calls.count call :=
    List.count_pos_iff.2 (List.mem_flatMap.2 ⟨j, hj, Option.mem_toList.2 hc⟩)
  have honce := hw.once call
  split at honce
  · assumption
  · omega

theorem Numbered.step {m : Move} (hw : w.Numbered) (h : w.step m = some w') : w'.Numbered := by
  obtain ⟨errand, -, rfl⟩ | ⟨i, cue, j, t, u, -, hj, -, hadv, rfl⟩ := step_cases h
  · have hnone : errand.task.call? = none := by cases errand <;> rfl
    refine ⟨hw.fits, ?_⟩
    simpa [calls, hnone] using hw.once
  · have hfits := fits_of_advances hw.fits (fun _ hc => hw.lt (List.mem_of_getElem? hj) hc) hadv
    have hle := nextCall_le_of_advances hadv
    refine ⟨hfits, fun call => ?_⟩
    have honce := hw.once call
    obtain ⟨pre, post, hjobs, hset⟩ := exists_jobs_split hj
    unfold calls at honce ⊢
    rw [hjobs] at honce
    rw [hset]
    simp only [List.flatMap_append, List.flatMap_cons, List.count_append] at honce ⊢
    obtain hc | hc | ⟨hnone, hc, hlt⟩ := call?_of_advances hadv
    · rw [hc]
      split at honce <;> split <;> omega
    · rw [hc, Option.toList_none, List.count_nil]
      split at honce <;> split <;> omega
    · -- The new call is the call of no other task, because it has a new number.
      rw [hnone, Option.toList_none, List.count_nil] at honce
      rw [hc, Option.toList_some, List.count_singleton]
      simp only [beq_iff_eq]
      split at honce <;> split <;> split <;> omega

theorem Reachable.numbered (hw : w.Reachable) : w.Numbered :=
  hw.invariant ⟨.new, fun _ => Nat.zero_le _⟩ fun hv _ hs => hv.step hs

/-- No two tasks are part of one call. -/
theorem Numbered.eq_of_call? (hw : w.Numbered) {i k call : Nat} {a b : Job} (hi : w.jobs[i]? = some a)
    (hk : w.jobs[k]? = some b) (ha : a.task.call? = some call) (hb : b.task.call? = some call) : i = k := by
  have hnodup : w.calls.Nodup := List.nodup_iff_count_le_one.2 fun c => by
    have honce := hw.once c
    split at honce <;> omega
  have hdisjoint := List.pairwise_iff_getElem.1 (List.nodup_flatMap.1 hnodup).2
  obtain ⟨hil, rfl⟩ := List.getElem?_eq_some_iff.1 hi
  obtain ⟨hkl, rfl⟩ := List.getElem?_eq_some_iff.1 hk
  by_contra hne
  obtain hlt | hlt := Nat.lt_or_gt_of_ne hne
  · exact hdisjoint i k hil hkl hlt (Option.mem_toList.2 ha) (Option.mem_toList.2 hb)
  · exact hdisjoint k i hkl hil hlt (Option.mem_toList.2 hb) (Option.mem_toList.2 ha)

/-- The place in flight holds the newest call that has started, as long as it has neither ended nor been
told to stop, and nothing else. So a cancellation finds a call exactly if there is such a call and stops
that call alone, a call that ends takes nothing from any other call, and no two calls have the same
number. -/
theorem inFlight_iff_running (hw : w.Reachable) :
    (∀ call, w.generator.inFlight = some call ↔ w.history.Running call) ∧
    (∀ (i : Nat) (errand : Errand), w.jobs[i]? = some ⟨errand, .cancelling⟩ →
      ∃ found v, w.step (.go i .turn) = some v ∧ v.jobs = w.jobs.set i ⟨errand, .done (.cancelled found)⟩ ∧
        (found = true ↔ ∃ call, w.history.Running call) ∧
        ∀ call, call ∈ v.generator.stopped ↔ call ∈ w.generator.stopped ∨ w.history.Running call) ∧
    (∀ (i : Nat) (errand : Errand) (call : Nat) (reply : Except GenerationError String),
      w.jobs[i]? = some ⟨errand, .ending call reply⟩ →
      ∃ v, w.step (.go i .turn) = some v ∧ ∀ other, other ≠ call →
        (v.generator.inFlight = some other ↔ w.generator.inFlight = some other) ∧
        (other ∈ v.generator.stopped ↔ other ∈ w.generator.stopped)) ∧
    w.history.started.Nodup := by
  have hf := hw.numbered.fits
  refine ⟨hf.inFlight, fun i errand hj => ?_, fun i errand call reply hj => ?_, hf.nodup⟩
  · refine ⟨w.generator.cancelCall.1, _, by rw [step, hj]; rfl, rfl, ?_, fun call => ?_⟩
    · simp only [← hf.inFlight]
      cases hflight : w.generator.inFlight with
      | none => simp [cancelCall_of_none hflight]
      | some call => simp [cancelCall_of_some hflight]
    · rw [← hf.inFlight]
      exact mem_stopped_cancelCall
  · refine ⟨_, by rw [step, hj]; rfl, fun other ho => ⟨?_, ?_⟩⟩
    · exact (History.Fits.inFlight_endCall w.generator call other).trans (and_iff_left ho)
    · simp [endCall, ho]

/-- Two calls run at a time, the older one ends, and the newer one is to be cancelled. -/
def overlappingCalls : List Move :=
  [.call .probe, .go 0 (.availability (.ok .available)), .go 0 .session, .go 0 .turn, .go 0 .turn,
    .call (.generate ['1']), .call (.generate ['2']), .go 1 .turn, .go 1 .sent, .go 2 .turn,
    .go 1 (.reply (.error .cancelled)), .go 1 .turn, .call .cancel]

theorem inFlight_overlappingCalls : ∃ w : Shared, new.run overlappingCalls = some w ∧
    w.generator.inFlight = some 1 ∧ w.history = ⟨[1, 0], [0], []⟩ ∧ w.history.Running 1 ∧
    ∃ v, w.step (.go 3 .turn) = some v ∧ v.generator.stopped = [1] := by
  refine ⟨_, rfl, rfl, rfl, ?_, _, rfl, rfl⟩
  exact ((inFlight_iff_running (@reachable_of_run _ overlappingCalls rfl)).1 1).1 rfl

end Shared
end MockRedirect.Generator
