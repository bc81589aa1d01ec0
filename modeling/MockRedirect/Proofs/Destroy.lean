import MockRedirect.Proofs.InFlight
/-! A generator that was destroyed. Of the tasks only probes can make it ready again, so that it stays
as it is if no probe is at work. The call that was in flight is told to stop, and ends as cancelled
unless its reply comes first; older calls go on. -/
namespace MockRedirect.Generator

/-- A task that neither installs a session nor sets the state to another one than that of a generator
that was destroyed. -/
def Task.Harmless : Task Nat → Prop
  | probing | fetching | opening | installing _ => False
  | closing _ next | settling next => next = .unavailable .destroyed
  | _ => True

/-- A call that was told to stop and that no reply has reached. -/
inductive Task.Told (g : Generator Nat) (call : Nat) : Task Nat → Prop
  | asking (s : Nat) (p : Prompt) (h : call ∈ g.stopped) : Told g call (.asking call s p)
  | waiting (h : call ∈ g.stopped) : Told g call (.waiting call)
  | ending : Told g call (.ending call (.error .cancelled))
  | done : Told g call (.done (.filled (.error .cancelled)))

/-- A destruction that has taken the session out. -/
inductive Task.Settles (g : Generator Nat) : Task Nat → Prop
  | closing (s : Nat) : Settles g (.closing s (.unavailable .destroyed))
  | settling : Settles g (.settling (.unavailable .destroyed))
  | done (o : Outcome) (h : g.readiness = .unavailable .destroyed) : Settles g (.done o)

/-- What a task does by itself: it sends its prompt, or takes its turn. -/
def Move.Alone (k : Nat) (m : Move) : Prop := m = .go k .sent ∨ m = .go k .turn

theorem Task.Told.mono {g g' : Generator Nat} {call : Nat} {t : Task Nat} (ht : t.Told g call)
    (h : call ∈ g.stopped → call ∈ g'.stopped) :
    t.Told g' call := by
  cases ht with
  | asking s p hc => exact .asking s p (h hc)
  | waiting hc => exact .waiting (h hc)
  | ending => exact .ending
  | done => exact .done

theorem Task.Settles.mono {g g' : Generator Nat} {t : Task Nat} (ht : t.Settles g)
    (h : g.readiness = .unavailable .destroyed → g'.readiness = .unavailable .destroyed) : t.Settles g' := by
  cases ht with
  | closing s => exact .closing s
  | settling => exact .settling
  | done o hr => exact .done o (h hr)

theorem Errand.harmless_task {errand : Errand} (h : errand ≠ .probe) : errand.task.Harmless := by
  cases errand with
  | probe => exact absurd rfl h
  | _ => trivial

namespace Shared

variable {w w' : Shared} {t t' : Task Nat}

/-! ### Tasks -/

theorem harmless_of_advances (ht : t.Harmless) (h : w.Advances t t' w') : t'.Harmless := by
  cases h with
  | pass h =>
    cases h with
    | available | fetched | refused => exact ht.elim
    | _ => trivial
  | create | install => exact ht.elim
  | empty => cases hs : w.generator.session <;> rfl
  | close => exact ht
  | stop h | miss h => cases h <;> trivial
  | _ => trivial

theorem session_of_advances (ht : t.Harmless) (hs : w.generator.session = none) (h : w.Advances t t' w') :
    w'.generator.session = none := by
  cases h with
  | install => exact ht.elim
  | empty => rfl
  | _ => exact hs

theorem readiness_of_advances (ht : t.Harmless) (hr : w.generator.readiness = .unavailable .destroyed)
    (h : w.Advances t t' w') : w'.generator.readiness = .unavailable .destroyed := by
  cases h with
  | settle => exact ht
  | _ => exact hr

theorem settles_of_advances (ht : t.Settles w.generator) (h : w.Advances t t' w') :
    t'.Settles w'.generator := by
  cases ht with
  | closing =>
    cases h with
    | pass h | stop h | miss h => cases h
    | close => exact .settling
  | settling =>
    cases h with
    | pass h | stop h | miss h => cases h
    | settle => exact .done _ rfl
  | done =>
    cases h with
    | pass h | stop h | miss h => cases h

/-- A call stays with those that were told to stop until it ends. -/
theorem mem_stopped_of_advances {call : Nat} (hc : call ∈ w.generator.stopped) (ht : t.call? ≠ some call)
    (h : w.Advances t t' w') : call ∈ w'.generator.stopped := by
  cases h with
  | finish other =>
    exact List.mem_filter.2 ⟨hc, decide_eq_true fun he => ht (he ▸ rfl)⟩
  | stop => exact List.mem_cons_of_mem _ hc
  | _ => exact hc

/-- Without a reply, a call that was told to stop can only end as cancelled. -/
theorem told_of_advance {call : Nat} {cue : Cue} (ht : t.Told w.generator call)
    (hcue : ∀ reply, cue ≠ .reply reply) (h : w.advance t cue = some (t', w')) : t'.Told w'.generator call := by
  cases ht with
  | asking s p hc =>
    cases cue with
    | sent =>
      cases h
      exact .waiting hc
    | _ => cases h
  | waiting hc =>
    cases cue with
    | turn =>
      simp only [advance, Task.step, hc, if_true, Option.map_some] at h
      cases h
      exact .ending
    | reply reply => exact absurd rfl (hcue reply)
    | _ => cases h
  | ending =>
    cases cue with
    | turn =>
      cases h
      exact .done
    | _ => cases h
  | done => cases cue <;> cases h

/-! ### Runs -/

theorem Reachable.harmless (hw : w.Reachable) : ∀ j ∈ w.jobs, j.errand ≠ .probe → j.task.Harmless := by
  refine hw.invariant (P := fun w => ∀ j ∈ w.jobs, j.errand ≠ .probe → j.task.Harmless)
    (fun j hj => absurd hj List.not_mem_nil) fun hv _ hs => ?_
  refine forall_jobs_of_step (P := fun j => j.errand ≠ .probe → j.task.Harmless) hv ?_ ?_ hs
  · exact fun errand _ he => Errand.harmless_task he
  · exact fun ht hadv he => harmless_of_advances (ht he) hadv

/-- A destruction has taken the session out, and no probe is at work. -/
structure Emptied (w : Shared) (i : Nat) : Prop where
  harmless : ∀ j ∈ w.jobs, j.task.Harmless
  session : w.generator.session = none
  settles : ∃ t, w.jobs[i]? = some ⟨.destroy, t⟩ ∧ t.Settles w.generator

theorem Emptied.step {i : Nat} {m : Move} (hw : w.Emptied i) (hm : m ≠ .call .probe) (h : w.step m = some w') :
    w'.Emptied i := by
  obtain ⟨t, hi, ht⟩ := hw.settles
  refine ⟨?_, ?_, ?_⟩
  · refine forall_jobs_of_step hw.harmless (fun errand hcall => Errand.harmless_task ?_) harmless_of_advances h
    rintro rfl
    exact hm hcall
  · obtain ⟨errand, -, rfl⟩ | ⟨i, cue, j, t, u, -, hj, -, hadv, rfl⟩ := step_cases h
    · exact hw.session
    · have hs := session_of_advances (hw.harmless j (List.mem_of_getElem? hj)) hw.session hadv
      exact hs
  · obtain ⟨cue, t', u, -, -, hadv, hi', hg⟩ | ⟨hi', hg | ⟨k, j, t', u, -, hj, hadv, hg⟩⟩ := job_of_step hi h
    · exact ⟨t', hi', hg ▸ settles_of_advances ht hadv⟩
    · exact ⟨t, hi', hg ▸ ht⟩
    · refine ⟨t, hi', ht.mono fun hr => ?_⟩
      rw [hg]
      exact readiness_of_advances (hw.harmless j (List.mem_of_getElem? hj)) hr hadv

/-- The session is taken out while no probe is at work. -/
theorem emptied_of_step {i : Nat} (hw : w.Reachable) (hi : w.jobs[i]? = some ⟨.destroy, .emptying⟩)
    (hprobe : ∀ j ∈ w.jobs, j.errand = .probe → ∃ o, j.task = .done o) (h : w.step (.go i .turn) = some w') :
    w'.Emptied i := by
  have hharmless (j : Job) (hj : j ∈ w.jobs) : j.task.Harmless := by
    by_cases he : j.errand = .probe
    · obtain ⟨o, ho⟩ := hprobe j hj he
      rw [ho]
      trivial
    · exact hw.harmless j hj he
  have hlt : i < w.jobs.length := (List.getElem?_eq_some_iff.1 hi).1
  have hafter : w' = { w with
      generator := { w.generator with session := none }
      jobs := w.jobs.set i ⟨.destroy, Task.afterSwap w.generator.session (.unavailable .destroyed)⟩
      history := w.history.record .emptying (Task.afterSwap w.generator.session (.unavailable .destroyed))
        w.generator { w.generator with session := none } } := by
    rw [step, hi] at h
    cases h
    rfl
  refine ⟨?_, ?_, ?_⟩
  · exact forall_jobs_of_step hharmless (fun errand hcall => by cases hcall) harmless_of_advances h
  · rw [hafter]
  · rw [hafter]
    refine ⟨_, List.getElem?_set_self hlt, ?_⟩
    cases w.generator.session with
    | none => exact .settling
    | some s => exact .closing s

/-- A call that was told to stop stays so, whatever the other tasks do, as long as no reply reaches it. -/
theorem told_step {k call : Nat} {errand : Errand} {m : Move} (hw : w.Numbered)
    (hk : w.jobs[k]? = some ⟨errand, t⟩) (ht : t.Told w.generator call)
    (hm : ∀ reply, m ≠ .go k (.reply reply)) (h : w.step m = some w') :
    ∃ t', w'.jobs[k]? = some ⟨errand, t'⟩ ∧ t'.Told w'.generator call := by
  obtain ⟨cue, t', u, rfl, hu, -, hk', hg⟩ | ⟨hk', hg | ⟨i, j, t', u, hik, hj, hadv, hg⟩⟩ := job_of_step hk h
  · exact ⟨t', hk', hg ▸ told_of_advance ht (fun reply he => hm reply (he ▸ rfl)) hu⟩
  · exact ⟨t, hk', hg ▸ ht⟩
  · refine ⟨t, hk', ?_⟩
    rw [hg]
    -- The task that goes on is part of another call, so that it does not end this one.
    have hother (hcall : t.call? = some call) : j.task.call? ≠ some call :=
      fun hc => hik (hw.eq_of_call? hj hk hc hcall)
    cases ht with
    | asking s p hc => exact .asking s p (mem_stopped_of_advances hc (hother rfl) hadv)
    | waiting hc => exact .waiting (mem_stopped_of_advances hc (hother rfl) hadv)
    | ending => exact .ending
    | done => exact .done

theorem told_of_reaches {k call : Nat} {errand : Errand} {v : Shared} (hw : w.Numbered)
    (hk : ∃ t, w.jobs[k]? = some ⟨errand, t⟩ ∧ t.Told w.generator call)
    (hr : w.Reaches (fun m => ∀ reply, m ≠ .go k (.reply reply)) v) :
    ∃ t, v.jobs[k]? = some ⟨errand, t⟩ ∧ t.Told v.generator call := by
  have hboth := hr.invariant (P := fun v => v.Numbered ∧ ∃ t, v.jobs[k]? = some ⟨errand, t⟩ ∧
      t.Told v.generator call) ⟨hw, hk⟩ fun ⟨hn, t, hk, ht⟩ hm hs => ⟨hn.step hs, told_step hn hk ht hm hs⟩
  exact hboth.2

section Alone

variable {k call : Nat} {errand : Errand}

/-- A task gets to its end by itself. -/
def Cancels (w : Shared) (k : Nat) (errand : Errand) : Prop :=
  ∃ v, w.Reaches (Move.Alone k) v ∧ v.jobs[k]? = some ⟨errand, .done (.filled (.error .cancelled))⟩

theorem Cancels.head {m : Move} (hm : m.Alone k) (h : w.step m = some w') (hw : w'.Cancels k errand) :
    w.Cancels k errand := by
  obtain ⟨v, hv, hdone⟩ := hw
  exact ⟨v, .trans (.step m .refl hm h) hv, hdone⟩

theorem cancels_of_ending (hk : w.jobs[k]? = some ⟨errand, .ending call (.error .cancelled)⟩) :
    w.Cancels k errand := by
  obtain ⟨v, hv, -, hdone, -⟩ := exists_step_go .turn hk rfl
  exact .head (.inr rfl) hv ⟨v, .refl, hdone⟩

theorem cancels_of_waiting (hk : w.jobs[k]? = some ⟨errand, .waiting call⟩)
    (hc : call ∈ w.generator.stopped) : w.Cancels k errand := by
  have hturn : (Task.waiting call).step w.generator =
      some (.ending call (.error .cancelled), w.generator) := by simp [Task.step, hc]
  obtain ⟨v, hv, -, hk', -⟩ := exists_step_go .turn hk (by rw [advance, hturn]; rfl)
  exact .head (.inr rfl) hv (cancels_of_ending hk')

/-- A call that was told to stop needs nothing but its own steps to end as cancelled. -/
theorem cancels_of_told (hk : w.jobs[k]? = some ⟨errand, t⟩) (ht : t.Told w.generator call) :
    w.Cancels k errand := by
  cases ht with
  | asking s p hc =>
    obtain ⟨v, hv, -, hk', hg⟩ := exists_step_go .sent hk rfl
    exact .head (.inl rfl) hv (cancels_of_waiting hk' (hg ▸ hc))
  | waiting hc => exact cancels_of_waiting hk hc
  | ending => exact cancels_of_ending hk
  | done => exact ⟨w, .refl, hk⟩

end Alone

/-! ### The steps of a destruction -/

theorem Emptied.of_reaches {i : Nat} {v : Shared} (hw : w.Emptied i) (hr : w.Reaches (· ≠ .call .probe) v) :
    v.Emptied i :=
  hr.invariant (P := (Emptied · i)) hw fun hv hm hs => Emptied.step hv hm hs

/-- What a generator that was destroyed says to a call. -/
def refusal (template : List Char) : GenerationError :=
  if template.all Text.isBlank then .emptyTemplate else .unavailable .destroyed

theorem refuses {k : Nat} {errand : Errand} {template : List Char}
    (hr : w.generator.readiness = .unavailable .destroyed)
    (hk : w.jobs[k]? = some ⟨errand, .starting template⟩) : ∃ v, w.step (.go k .turn) = some v ∧
      v.jobs = w.jobs.set k ⟨errand, .done (.filled (.error (refusal template)))⟩ := by
  have hstart : w.generator.startCall = .error .destroyed := by simp [startCall, hr, Readiness.reason]
  have hturn : (Task.starting template).step w.generator =
      some (.done (.filled (.error (refusal template))), w.generator) := by
    simp only [Task.step, hstart, refusal]
    split <;> rfl
  obtain ⟨v, hv, hjobs, -, -⟩ := exists_step_go .turn hk (by rw [advance, hturn]; rfl)
  exact ⟨v, hv, hjobs⟩

/-- The first step of a destruction tells the call in flight to stop, and does nothing else to the
generator and to the other tasks. -/
theorem dismissed_of_step {i : Nat} (hi : w.jobs[i]? = some ⟨.destroy, .dismissing⟩)
    (h : w.step (.go i .turn) = some w') :
    w'.jobs = w.jobs.set i ⟨.destroy, .emptying⟩ ∧ w'.generator = w.generator.cancelCall.2 := by
  obtain ⟨u, hu, hjobs, -, hg⟩ := exists_step_go .turn hi rfl
  obtain rfl : u = w' := Option.some.inj (hu.symm.trans h)
  exact ⟨hjobs, hg⟩

theorem told_of_call? {g : Generator Nat} {call : Nat} (hc : call ∈ g.stopped) (ht : t.call? = some call)
    (hreply : ∀ reply, t ≠ .ending call reply) : t.Told g call := by
  cases t with
  | asking c s p =>
    cases ht
    exact .asking s p hc
  | waiting c =>
    cases ht
    exact .waiting hc
  | ending c reply =>
    cases ht
    exact absurd rfl (hreply reply)
  | _ => cases ht

/-- Once a destruction has ended, if no probe was at work when it took the session out and none was
called for since, the generator refuses to work, has no session, and refuses every call. The call that
was in flight when the destruction began was told to stop: without a reply it ends as cancelled, if it
ends, and its own steps are enough for that. No other call was told so. -/
theorem destroy_final {w₀ w₁ : Shared} {i : Nat} (hw : w₀.Reachable)
    (hi : w₀.jobs[i]? = some ⟨.destroy, .dismissing⟩) (h₁ : w₀.step (.go i .turn) = some w₁) :
    (∀ w₂ w₃ v o, w₁.Reaches (fun _ => True) w₂ → w₂.jobs[i]? = some ⟨.destroy, .emptying⟩ →
      (∀ j ∈ w₂.jobs, j.errand = .probe → ∃ o, j.task = .done o) → w₂.step (.go i .turn) = some w₃ →
      w₃.Reaches (· ≠ .call .probe) v → v.jobs[i]? = some ⟨.destroy, .done o⟩ →
        v.generator.readiness = .unavailable .destroyed ∧ v.generator.session = none ∧
        ∀ k errand template, v.jobs[k]? = some ⟨errand, .starting template⟩ →
          ∃ u, v.step (.go k .turn) = some u ∧
            u.jobs = v.jobs.set k ⟨errand, .done (.filled (.error (refusal template)))⟩) ∧
    (∀ k errand t call, w₀.generator.inFlight = some call → w₀.jobs[k]? = some ⟨errand, t⟩ →
      t.call? = some call → (∀ reply, t ≠ .ending call reply) →
      ∀ v, w₁.Reaches (fun m => ∀ reply, m ≠ .go k (.reply reply)) v →
        (∀ o, v.jobs[k]? = some ⟨errand, .done o⟩ → o = .filled (.error .cancelled)) ∧ v.Cancels k errand) ∧
    ∀ call ∈ w₁.generator.stopped, call ∈ w₀.generator.stopped ∨ w₀.generator.inFlight = some call := by
  obtain ⟨hjobs, hg⟩ := dismissed_of_step hi h₁
  have hw₁ : w₁.Reachable := .step _ hw trivial h₁
  refine ⟨fun w₂ w₃ v o h₂ hempty hprobe h₃ hv hdone => ?_, ?_, ?_⟩
  · have hemptied := (emptied_of_step (hw₁.trans h₂) hempty hprobe h₃).of_reaches hv
    obtain ⟨t, ht, hsettles⟩ := hemptied.settles
    rw [hdone] at ht
    cases ht
    cases hsettles with
    | done _ hr => exact ⟨hr, hemptied.session, fun k errand template hk => refuses hr hk⟩
  · intro k errand t call hflight hk hcall hreply v hv
    have hne : i ≠ k := by
      rintro rfl
      rw [hi] at hk
      cases hk
      cases hcall
    have hk₁ : w₁.jobs[k]? = some ⟨errand, t⟩ := by rw [hjobs, List.getElem?_set_ne hne, hk]
    have hc : call ∈ w₁.generator.stopped := by
      rw [hg, mem_stopped_cancelCall]
      exact .inr hflight
    obtain ⟨t', hk', ht'⟩ := told_of_reaches hw₁.numbered ⟨t, hk₁, told_of_call? hc hcall hreply⟩ hv
    refine ⟨fun o ho => ?_, cancels_of_told hk' ht'⟩
    rw [ho] at hk'
    cases hk'
    cases ht'
    rfl
  · intro call hc
    rwa [hg, mem_stopped_cancelCall] at hc

/-! ### A destruction with two calls in flight -/

/-- A probe opens a session, two calls wait for their replies, and the generator is to be destroyed. -/
def twoCalls : List Move :=
  [.call .probe, .go 0 (.availability (.ok .available)), .go 0 .session, .go 0 .turn, .go 0 .turn,
    .call (.generate ['1']), .go 1 .turn, .go 1 .sent, .call (.generate ['2']), .go 2 .turn, .go 2 .sent,
    .call .destroy]

/-- Two calls that wait, and how far the destruction of their generator has come. -/
def twoWaiting (readiness : Readiness) (session inFlight : Option Nat) (stopped closed : List Nat)
    (t : Task Nat) : Shared where
  generator := ⟨readiness, session, inFlight, 2, stopped⟩
  jobs := [⟨.probe, .done (.settled .ready)⟩, ⟨.generate ['1'], .waiting 0⟩, ⟨.generate ['2'], .waiting 1⟩,
    ⟨.destroy, t⟩]
  created := 1
  closed := closed
  history := ⟨[1, 0], [], stopped⟩

theorem run_twoCalls : new.run twoCalls = some (twoWaiting .ready (some 0) (some 1) [] [] .dismissing) := rfl

theorem destroy_twoWaiting : ∃ w₁ w₂ v : Shared,
    (twoWaiting .ready (some 0) (some 1) [] [] .dismissing).step (.go 3 .turn) = some w₁ ∧
    w₁.step (.go 3 .turn) = some w₂ ∧ w₂.run [.go 3 .closed, .go 3 .turn] = some v ∧
    v.generator.readiness = .unavailable .destroyed ∧ v.generator.session = none ∧
    v.Cancels 2 (.generate ['2']) := by
  let w₁ := twoWaiting .ready (some 0) none [1] [] .emptying
  let w₂ := twoWaiting .ready none none [1] [] (.closing 0 (.unavailable .destroyed))
  let v := twoWaiting (.unavailable .destroyed) none none [1] [0] (.done (.settled (.unavailable .destroyed)))
  refine ⟨w₁, w₂, v, rfl, rfl, rfl, ?_⟩
  obtain ⟨hfinal, hcalls, -⟩ := destroy_final (i := 3) (reachable_of_run run_twoCalls) rfl rfl
  have hprobe : ∀ j ∈ w₁.jobs, j.errand = .probe → ∃ o, j.task = .done o :=
    List.forall_mem_cons.2 ⟨fun _ => ⟨_, rfl⟩, List.forall_mem_cons.2 ⟨nofun,
      List.forall_mem_cons.2 ⟨nofun, List.forall_mem_singleton.2 nofun⟩⟩⟩
  have hend : w₂.run [.go 3 .closed, .go 3 .turn] = some v := rfl
  have hall : w₁.run [.go 3 .turn, .go 3 .closed, .go 3 .turn] = some v := rfl
  obtain ⟨hr, hs, -⟩ := hfinal w₁ w₂ v _ .refl rfl hprobe rfl (reaches_of_run (by simp) hend) rfl
  exact ⟨hr, hs, (hcalls 2 _ _ 1 rfl rfl rfl nofun v (reaches_of_run (by simp) hall)).2⟩

/-- The older call is not reached: its reply may come when the destruction has long ended. The reply
to the newer call may still come before the call takes its turn to stop. A blank template is refused as
such. And a probe that was at work while the generator was destroyed makes it ready again. -/
theorem destroy_not_final :
    (∃ w₀ w, new.run twoCalls = some w₀ ∧ w₀.jobs[1]? = some ⟨.generate ['1'], .waiting 0⟩ ∧
      w₀.run [.go 3 .turn, .go 3 .turn, .go 3 .closed, .go 3 .turn] = some w ∧
      w.jobs[3]? = some ⟨.destroy, .done (.settled (.unavailable .destroyed))⟩ ∧
      (∃ v, w.run [.go 1 (.reply (.ok "\x7b\x7d")), .go 1 .turn] = some v ∧
        v.jobs[1]? = some ⟨.generate ['1'], .done (.filled (.ok (.obj [])))⟩) ∧
      (∃ v, w.run [.go 2 (.reply (.ok "\x7b\x7d")), .go 2 .turn] = some v ∧
        v.jobs[2]? = some ⟨.generate ['2'], .done (.filled (.ok (.obj [])))⟩) ∧
      ∃ v, w.run [.call (.generate [' ']), .go 4 .turn] = some v ∧
        v.jobs[4]? = some ⟨.generate [' '], .done (.filled (.error .emptyTemplate))⟩) ∧
    ∃ w v, new.run [.call .probe, .go 0 (.availability (.ok .available)), .go 0 .session, .call .destroy,
        .go 1 .turn, .go 1 .turn, .go 1 .turn] = some w ∧
      w.jobs[1]? = some ⟨.destroy, .done (.settled (.unavailable .destroyed))⟩ ∧
      w.run [.go 0 .turn, .go 0 .turn] = some v ∧
      v.generator.readiness = .ready ∧ v.generator.session = some 0 := by
  let w₀ := twoWaiting .ready (some 0) (some 1) [] [] .dismissing
  let w := twoWaiting (.unavailable .destroyed) none none [1] [0] (.done (.settled (.unavailable .destroyed)))
  have hend : w₀.run [.go 3 .turn, .go 3 .turn, .go 3 .closed, .go 3 .turn] = some w := rfl
  exact ⟨⟨w₀, w, run_twoCalls, rfl, hend, rfl, ⟨_, rfl, rfl⟩, ⟨_, rfl, rfl⟩, _, rfl, rfl⟩,
    _, _, rfl, rfl, rfl, rfl, rfl⟩

end Shared
end MockRedirect.Generator
