import MockRedirect.Model.Shared
/-! What a move in a shared generator can do. All invariants of shared generators are shown from the
cases of `Shared.Advances`, of which each stands for one thing that a task does in one go. -/
namespace MockRedirect.Generator

/-- A task goes on and changes nothing besides. -/
inductive Task.Passes : Task Nat → Task Nat → Prop
  | available (answer : Except GenerationError Availability) :
    Passes .probing (.afterAvailability answer)
  | fetched (answer : Except GenerationError Unit) : Passes .fetching (.afterDownload answer)
  | refused (error : GenerationError) : Passes .opening (.afterOpening (.error error))
  | rejected (template : List Char) (error : GenerationError) :
    Passes (.starting template) (.done (.filled (.error error)))
  | sent (call s : Nat) (p : Prompt) : Passes (.asking call s p) (.waiting call)
  | answered (call : Nat) (reply : Except GenerationError String) :
    Passes (.waiting call) (.ending call reply)

/-- A task tells the call in flight to stop, if there is one. -/
inductive Task.Stops : Bool → Task Nat → Task Nat → Prop
  | cancel (found : Bool) : Stops found .cancelling (.done (.cancelled found))
  | dismiss (found : Bool) : Stops found .dismissing .emptying

namespace Shared

/-- What a task can do in one go: where it is afterwards, and what has changed. -/
inductive Advances (w : Shared) : Task Nat → Task Nat → Shared → Prop
  | pass {t t' : Task Nat} (h : t.Passes t') : Advances w t t' w
  | create : Advances w .opening (.installing w.created) { w with created := w.created + 1 }
  | install (s : Nat) : Advances w (.installing s) (.afterSwap w.generator.session .ready)
    { w with generator := { w.generator with session := some s } }
  | empty : Advances w .emptying (.afterSwap w.generator.session (.unavailable .destroyed))
    { w with generator := { w.generator with session := none } }
  | close (s : Nat) (next : Readiness) :
    Advances w (.closing s next) (.settling next) { w with closed := s :: w.closed }
  | settle (next : Readiness) : Advances w (.settling next) (.done (.settled next))
    { w with generator := w.generator.settle next }
  | start (template : List Char) {s : Nat} (hready : w.generator.readiness = .ready)
    (hs : w.generator.session = some s) :
    Advances w (.starting template) (.asking w.generator.nextCall s (.ofTemplate template))
      { w with
        generator := { w.generator with
          inFlight := some w.generator.nextCall
          nextCall := w.generator.nextCall + 1 }
        history := { w.history with started := w.generator.nextCall :: w.history.started } }
  | finish (call : Nat) (reply : Except GenerationError String) :
    Advances w (.ending call reply) (.done (.filled (Task.outcomeOf reply)))
      { w with
        generator := w.generator.endCall call
        history := { w.history with ended := call :: w.history.ended } }
  | stop {call : Nat} {t t' : Task Nat} (h : t.Stops true t') (hcall : w.generator.inFlight = some call) :
    Advances w t t'
      { w with
        generator := { w.generator with
          inFlight := none
          stopped := call :: w.generator.stopped }
        history := { w.history with
          stopped := [call].filter (· ∉ w.generator.stopped) ++ w.history.stopped } }
  | miss {t t' : Task Nat} (h : t.Stops false t') (hnone : w.generator.inFlight = none) :
    Advances w t t' w

variable {w w' : Shared} {t t' : Task Nat}

theorem filter_notMem_self (l : List Nat) : l.filter (· ∉ l) = [] :=
  List.filter_eq_nil_iff.2 fun _ h => by simp [h]

/-- A step that neither starts nor ends a call, and leaves the calls that were told to stop, is no
part of the history. -/
theorem record_eq_self {h : History} {g g' : Generator Nat}
    (hstart : ∀ template, t = .starting template → ∃ o, t' = .done o)
    (hend : ∀ call reply, t ≠ .ending call reply) (hstop : g'.stopped = g.stopped) :
    h.record t t' g g' = h := by
  have hstopped : g'.stopped.filter (· ∉ g.stopped) ++ h.stopped = h.stopped := by
    rw [hstop, filter_notMem_self, List.nil_append]
  unfold History.record
  rw [hstopped]
  cases t with
  | starting template =>
    obtain ⟨o, rfl⟩ := hstart template rfl
    rfl
  | ending call reply => exact absurd rfl (hend call reply)
  | _ => rfl

theorem Advances.of_quiet {g : Generator Nat} (hstart : ∀ template, t = .starting template → ∃ o, t' = .done o)
    (hend : ∀ call reply, t ≠ .ending call reply) (hstop : g.stopped = w.generator.stopped)
    (h : w.Advances t t' { w with generator := g }) :
    w.Advances t t' { w with generator := g, history := w.history.record t t' w.generator g } := by
  rw [record_eq_self hstart hend hstop]
  exact h

theorem cancelCall_of_some {g : Generator Nat} {call : Nat} (h : g.inFlight = some call) :
    g.cancelCall = (true, { g with inFlight := none, stopped := call :: g.stopped }) := by
  rw [cancelCall, h]

theorem cancelCall_of_none {g : Generator Nat} (h : g.inFlight = none) : g.cancelCall = (false, g) := by
  rw [cancelCall, h]

/-- The call in flight is told to stop, and no other one. -/
theorem mem_stopped_cancelCall {g : Generator Nat} {call : Nat} :
    call ∈ g.cancelCall.2.stopped ↔ call ∈ g.stopped ∨ g.inFlight = some call := by
  cases hflight : g.inFlight with
  | none => simp [cancelCall_of_none hflight]
  | some newest => simp [cancelCall_of_some hflight, or_comm, eq_comm]

/-- A cancellation is part of the history exactly if there was a call in flight. -/
theorem advances_cancelCall {r : Bool → Task Nat} (hr : ∀ found, t.Stops found (r found))
    (ht : ∀ template, t ≠ .starting template) (hend : ∀ call reply, t ≠ .ending call reply) :
    w.Advances t (r w.generator.cancelCall.1)
      { w with
        generator := w.generator.cancelCall.2
        history := w.history.record t (r w.generator.cancelCall.1) w.generator w.generator.cancelCall.2 } := by
  cases hflight : w.generator.inFlight with
  | none =>
    rw [cancelCall_of_none hflight]
    exact .of_quiet (fun template h => absurd h (ht template)) hend rfl (.miss (hr false) hflight)
  | some call =>
    rw [cancelCall_of_some hflight]
    have hnew : (call :: w.generator.stopped).filter (· ∉ w.generator.stopped) =
        [call].filter (· ∉ w.generator.stopped) := by
      rw [← List.singleton_append, List.filter_append, filter_notMem_self, List.append_nil]
    have hrecord : w.history.record t (r true) w.generator
        { w.generator with inFlight := none, stopped := call :: w.generator.stopped } =
        { w.history with stopped := [call].filter (· ∉ w.generator.stopped) ++ w.history.stopped } := by
      unfold History.record
      rw [hnew]
      cases t with
      | starting template => exact absurd rfl (ht template)
      | ending call reply => exact absurd rfl (hend call reply)
      | _ => rfl
    rw [hrecord]
    exact .stop (hr true) hflight

theorem advances_of_step {g : Generator Nat} (h : t.step w.generator = some (t', g)) :
    w.Advances t t' { w with generator := g, history := w.history.record t t' w.generator g } := by
  cases t <;> simp only [Task.step] at h
  case installing s =>
    cases h
    exact .of_quiet (by simp) (by simp) rfl (.install s)
  case emptying =>
    cases h
    exact .of_quiet (by simp) (by simp) rfl .empty
  case settling next =>
    cases h
    exact .of_quiet (by simp) (by simp) rfl (.settle next)
  case starting template =>
    split at h
    · cases h
      exact .of_quiet (fun _ _ => ⟨_, rfl⟩) (by simp) rfl (.pass (.rejected template .emptyTemplate))
    · cases hstart : w.generator.startCall with
      | error reason =>
        rw [hstart] at h
        cases h
        exact .of_quiet (fun _ _ => ⟨_, rfl⟩) (by simp) rfl (.pass (.rejected template (.unavailable reason)))
      | ok started =>
        rw [hstart] at h
        cases h
        unfold startCall at hstart
        split at hstart
        · next s hready hs =>
          cases hstart
          have hstopped := filter_notMem_self w.generator.stopped
          simp only [History.record, hstopped, List.nil_append]
          exact .start template hready hs
        · cases hstart
  case waiting call =>
    split at h
    · cases h
      exact .of_quiet (by simp) (by simp) rfl (.pass (.answered call _))
    · cases h
  case ending call reply =>
    cases h
    have hstopped : (w.generator.endCall call).stopped.filter (· ∉ w.generator.stopped) = [] :=
      List.filter_eq_nil_iff.2 fun c hc => by simpa using (List.mem_filter.1 hc).1
    simp only [History.record, hstopped, List.nil_append]
    exact .finish call reply
  case cancelling =>
    cases h
    exact advances_cancelCall (r := fun found => .done (.cancelled found)) .cancel (by simp) (by simp)
  case dismissing =>
    cases h
    exact advances_cancelCall (r := fun _ => .emptying) .dismiss (by simp) (by simp)
  all_goals cases h

theorem advances_of_advance {cue : Cue} (h : w.advance t cue = some (t', w')) : w.Advances t t' w' := by
  unfold advance at h
  split at h
  · obtain ⟨⟨u, g⟩, hstep, hu⟩ := Option.map_eq_some_iff.1 h
    cases hu
    exact advances_of_step hstep
  · cases h
    exact .pass (.available _)
  · cases h
    exact .pass (.fetched _)
  · cases h
    exact .create
  · cases h
    exact .pass (.refused _)
  · cases h
    exact .close _ _
  · cases h
    exact .pass (.sent _ _ _)
  · cases h
    exact .pass (.answered _ _)
  · cases h

/-- A move adds a job, or one job goes on. -/
theorem step_cases {m : Move} (h : w.step m = some w') :
    (∃ errand, m = .call errand ∧ w' = { w with jobs := w.jobs ++ [⟨errand, errand.task⟩] }) ∨
    ∃ i cue j t u, m = .go i cue ∧ w.jobs[i]? = some j ∧ w.advance j.task cue = some (t, u) ∧
      w.Advances j.task t u ∧ w' = { u with jobs := w.jobs.set i ⟨j.errand, t⟩ } := by
  cases m with
  | call errand =>
    cases h
    exact .inl ⟨errand, rfl, rfl⟩
  | go i cue =>
    obtain ⟨j, hj, h⟩ := Option.bind_eq_some_iff.1 h
    obtain ⟨⟨t, u⟩, hu, h⟩ := Option.bind_eq_some_iff.1 h
    cases h
    exact .inr ⟨i, cue, j, t, u, rfl, hj, hu, advances_of_advance hu, rfl⟩

/-- A job can go on with each cue that its task takes. -/
theorem exists_step_go {k : Nat} {errand : Errand} (cue : Cue) (hk : w.jobs[k]? = some ⟨errand, t⟩)
    (h : w.advance t cue = some (t', w')) : ∃ v, w.step (.go k cue) = some v ∧
      v.jobs = w.jobs.set k ⟨errand, t'⟩ ∧ v.jobs[k]? = some ⟨errand, t'⟩ ∧ v.generator = w'.generator := by
  refine ⟨{ w' with jobs := w.jobs.set k ⟨errand, t'⟩ }, ?_, rfl, ?_, rfl⟩
  · simp only [step, hk, Option.bind_eq_bind, Option.bind_some, h]
  · exact List.getElem?_set_self (List.getElem?_eq_some_iff.1 hk).1

/-- The jobs around the one that goes on. -/
theorem exists_jobs_split {i : Nat} {j : Job} (hj : w.jobs[i]? = some j) :
    ∃ pre post, w.jobs = pre ++ j :: post ∧ ∀ k, w.jobs.set i k = pre ++ k :: post := by
  obtain ⟨hi, rfl⟩ := List.getElem?_eq_some_iff.1 hj
  refine ⟨w.jobs.take i, w.jobs.drop (i + 1), ?_, fun k => ?_⟩
  · rw [List.getElem_cons_drop, List.take_append_drop]
  · rw [List.set_eq_take_append_cons_drop, if_pos hi]

/-- What holds of the jobs and is kept by each of them as it goes on, holds after a move. -/
theorem forall_jobs_of_step {P : Job → Prop} {m : Move} (hw : ∀ j ∈ w.jobs, P j)
    (hcall : ∀ errand, m = .call errand → P ⟨errand, errand.task⟩)
    (hgo : ∀ {errand t t' u}, P ⟨errand, t⟩ → w.Advances t t' u → P ⟨errand, t'⟩) (h : w.step m = some w') :
    ∀ j ∈ w'.jobs, P j := by
  obtain ⟨errand, hm, rfl⟩ | ⟨i, cue, j, t, u, -, hj, -, hadv, rfl⟩ := step_cases h
  · exact List.forall_mem_append.2 ⟨hw, List.forall_mem_singleton.2 (hcall errand hm)⟩
  · intro k hk
    obtain hk | rfl := List.mem_or_eq_of_mem_set hk
    · exact hw k hk
    · exact hgo (hw j (List.mem_of_getElem? hj)) hadv

/-- A job goes on with a move, or it stays where it is while another one may go on. -/
theorem job_of_step {m : Move} {k : Nat} {errand : Errand} (hk : w.jobs[k]? = some ⟨errand, t⟩)
    (h : w.step m = some w') :
    (∃ cue t' u, m = .go k cue ∧ w.advance t cue = some (t', u) ∧ w.Advances t t' u ∧
      w'.jobs[k]? = some ⟨errand, t'⟩ ∧ w'.generator = u.generator) ∨
    w'.jobs[k]? = some ⟨errand, t⟩ ∧ (w'.generator = w.generator ∨ ∃ i j t' u, i ≠ k ∧ w.jobs[i]? = some j ∧
      w.Advances j.task t' u ∧ w'.generator = u.generator) := by
  have hlt : k < w.jobs.length := (List.getElem?_eq_some_iff.1 hk).1
  obtain ⟨errand, -, rfl⟩ | ⟨i, cue, j, t', u, rfl, hj, hu, hadv, rfl⟩ := step_cases h
  · exact .inr ⟨(List.getElem?_append_left hlt).trans hk, .inl rfl⟩
  · by_cases hik : i = k
    · subst hik
      obtain rfl : j = ⟨_, t⟩ := Option.some.inj (hj.symm.trans hk)
      exact .inl ⟨cue, t', u, rfl, hu, hadv, List.getElem?_set_self hlt, rfl⟩
    · exact .inr ⟨(List.getElem?_set_ne hik).trans hk, .inr ⟨i, j, t', u, hik, hj, hadv, rfl⟩⟩

/-! ### Runs -/

variable {kind : Move → Prop} {v u : Shared}

/-- What every move of a kind keeps holds after any number of them. -/
theorem Reaches.invariant {P : Shared → Prop} (hr : w.Reaches kind v) (h : P w)
    (hstep : ∀ {v u m}, P v → kind m → v.step m = some u → P u) : P v := by
  induction hr with
  | refl => exact h
  | step m _ hm hs ih => exact hstep ih hm hs

theorem Reaches.trans (hv : w.Reaches kind v) (hu : v.Reaches kind u) : w.Reaches kind u := by
  induction hu with
  | refl => exact hv
  | step m _ hm hs ih => exact .step m ih hm hs

theorem Reaches.mono {other : Move → Prop} (hkind : ∀ m, kind m → other m) (hr : w.Reaches kind v) :
    w.Reaches other v := by
  induction hr with
  | refl => exact .refl
  | step m _ hm hs ih => exact .step m ih (hkind m hm) hs

theorem Reachable.trans (hw : w.Reachable) (hr : w.Reaches kind v) : v.Reachable :=
  Reaches.trans hw (hr.mono fun _ _ => trivial)

theorem reaches_of_run {moves : List Move} (hkind : ∀ m ∈ moves, kind m) (h : w.run moves = some v) :
    w.Reaches kind v := by
  induction moves generalizing w with
  | nil =>
    cases h
    exact .refl
  | cons m moves ih =>
    obtain ⟨u, hu, h⟩ := Option.bind_eq_some_iff.1 h
    rw [List.forall_mem_cons] at hkind
    exact Reaches.trans (.step m .refl hkind.1 hu) (ih hkind.2 h)

theorem reachable_of_run {moves : List Move} (h : new.run moves = some v) : v.Reachable :=
  reaches_of_run (fun _ _ => trivial) h

end Shared
end MockRedirect.Generator
