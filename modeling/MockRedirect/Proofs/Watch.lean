import MockRedirect.Proofs.Channel
import MockRedirect.Proofs.Reconcile
import MockRedirect.Rule.Watch
/-! Watching never leaves the table behind the store. Whatever the table lacks is announced, unread or
waited for, or it is read by the reconciliation that is running. -/
namespace MockRedirect
open List Engine

/-! ### Writes -/

theorem planned_congr {a b : Members} (hs : Members.get? globalKey a = Members.get? globalKey b)
    (hm : Members.get? Records.key a = Members.get? Records.key b) : planned a = planned b := by
  unfold planned Records.ofEntries
  rw [hs, hm]

/-- A write that is of no concern to the watcher changes nothing that a reconciliation reads. -/
theorem get?_of_not_concerns {new : Members} (h : concerns (.change ⟨Members.keys new⟩) = false)
    (s : Store) : Members.get? globalKey (s.write new).entries = Members.get? globalKey s.entries ∧
      Members.get? Records.key (s.write new).entries = Members.get? Records.key s.entries := by
  simp only [concerns, Change.touches, Bool.or_eq_false_iff, contains_eq_mem, decide_eq_false_iff_not] at h
  exact ⟨Members.get?_putAll_of_notMem h.2 _, Members.get?_putAll_of_notMem h.1 _⟩

/-! ### The invariant -/

namespace Stage

/-- What has been read agrees with the store as it is now. -/
def Agrees (entries : Members) : Stage → Prop
  | begun => True
  | switchedOn => Mocks.isOn entries = true
  | planned p => p.rules.toList = Engine.planned entries
  | listed p _ => p.rules.toList = Engine.planned entries

/-- The planned rules are for the mocks, and the listed ids are those of the table. -/
def Sound (t : Table) : Stage → Prop
  | begun => True
  | switchedOn => True
  | planned p => ∀ r ∈ p.rules.toList, isManaged r.id = true
  | listed p removed =>
    (∀ r ∈ p.rules.toList, isManaged r.id = true) ∧ removed = t.managed.map (·.id)

theorem Agrees.congr {a b : Members} {st : Stage} (h : st.Agrees a)
    (hs : Members.get? globalKey b = Members.get? globalKey a)
    (hm : Members.get? Records.key b = Members.get? Records.key a) : st.Agrees b := by
  cases st with
  | begun => trivial
  | switchedOn => simpa only [Agrees, Mocks.isOn, hs] using h
  | planned p => simpa only [Agrees, planned_congr hs hm] using h
  | listed p removed => simpa only [Agrees, planned_congr hs hm] using h

end Stage

namespace World

/-- A notice that makes the watcher reconcile is on its way to it, or has reached it. -/
def Pending (w : World) : Prop :=
  (∃ c ∈ w.unsent, concerns (.change c) = true) ∨
  (∃ n ∈ w.store.changes.unread w.seen, concerns n = true) ∨ w.waiting = true

/-- The table has the rules that the store asks for, or is about to get them. -/
def Current (w : World) : Prop :=
  match w.running with
  | none => w.engine.table.managed ~ planned w.store.entries
  | some r => r.stage.Agrees w.store.entries

theorem current_of_none {w : World} (hr : w.running = none) :
    w.Current ↔ w.engine.table.managed ~ planned w.store.entries := by
  rw [Current, hr]

theorem current_of_some {w : World} {r : Reconciliation} (hr : w.running = some r) :
    w.Current ↔ r.stage.Agrees w.store.entries := by
  rw [Current, hr]

structure Inv (w : World) : Prop where
  seen : w.seen ≤ w.store.changes.sent
  sound : ∀ r, w.running = some r → r.stage.Sound w.engine.table
  current : w.Pending ∨ w.Current

theorem Current.congr {w u : World} (h : w.Current) (hr : u.running = w.running)
    (he : u.engine = w.engine)
    (hs : Members.get? globalKey u.store.entries = Members.get? globalKey w.store.entries)
    (hm : Members.get? Records.key u.store.entries = Members.get? Records.key w.store.entries) :
    u.Current := by
  cases hw : w.running with
  | none =>
    rw [current_of_none (hr.trans hw), he, planned_congr hs hm]
    exact (current_of_none hw).1 h
  | some r => exact (current_of_some (hr.trans hw)).2 (((current_of_some hw).1 h).congr hs hm)

theorem inv_write {w : World} (h : w.Inv) (new : Members) :
    { w with
      store := w.store.write new
      unsent := w.unsent ++ [Change.mk (Members.keys new)] }.Inv where
  seen := h.seen
  sound := h.sound
  current := by
    cases hn : concerns (.change ⟨Members.keys new⟩) with
    | true =>
      exact Or.inl (Or.inl ⟨⟨Members.keys new⟩, by simp, hn⟩)
    | false =>
      obtain (⟨c, hc, hcc⟩ | hp) | hcur := h.current
      · exact Or.inl (Or.inl ⟨c, mem_append_left _ hc, hcc⟩)
      · exact Or.inl (Or.inr hp)
      · obtain ⟨hs, hm⟩ := get?_of_not_concerns hn w.store
        exact Or.inr (hcur.congr rfl rfl hs hm)

theorem inv_announce {w : World} (h : w.Inv) {i : Nat} {c : Change} (hc : w.unsent[i]? = some c) :
    { w with store := w.store.announce c, unsent := w.unsent.eraseIdx i }.Inv where
  seen := Nat.le_succ_of_le h.seen
  sound := h.sound
  current := by
    obtain (⟨d, hd, hdc⟩ | ⟨n, hn, hnc⟩ | hw) | hcur := h.current
    · left
      obtain ⟨j, hj⟩ := mem_iff_getElem?.1 hd
      by_cases hij : j = i
      · have hdc' : d = c := Option.some.inj ((hij ▸ hj).symm.trans hc)
        exact Or.inr (Or.inl ⟨_, Channel.mem_unread_send _ c h.seen, hdc' ▸ hdc⟩)
      · exact Or.inl ⟨d, mem_eraseIdx_iff_getElem?.2 ⟨j, hij, hj⟩, hdc⟩
    · left
      obtain hn' | ⟨missed, hm⟩ := Channel.unread_send (c := c) hn
      · exact Or.inr (Or.inl ⟨n, hn', hnc⟩)
      · exact Or.inr (Or.inl ⟨_, hm, rfl⟩)
    · exact Or.inl (Or.inr (Or.inr hw))
    · exact Or.inr hcur

theorem inv_receive {w u : World} (h : w.Inv) (hs : w.receive = some u) : u.Inv := by
  unfold receive at hs
  split at hs
  · contradiction
  · next hidle =>
    obtain ⟨⟨n, seen⟩, hr, rfl⟩ := Option.map_eq_some_iff.1 hs
    refine ⟨Channel.seen_le_sent_of_receive? hr, h.sound, ?_⟩
    have hu := Channel.unread_eq w.store.changes w.seen
    rw [hr] at hu
    obtain (hp | ⟨m, hm, hmc⟩ | hw) | hcur := h.current
    · exact Or.inl (Or.inl hp)
    · rw [hu, mem_cons] at hm
      obtain rfl | hm := hm
      · exact Or.inl (Or.inr (Or.inr hmc))
      · exact Or.inl (Or.inr (Or.inl ⟨m, hm, hmc⟩))
    · simp [hw] at hidle
    · exact Or.inr hcur

theorem inv_start {w u : World} (h : w.Inv) {byWatcher : Bool} (hs : w.start byWatcher = some u) :
    u.Inv := by
  unfold start at hs
  split at hs
  · contradiction
  · cases hs
    refine ⟨h.seen, ?_, Or.inr trivial⟩
    rintro _ ⟨⟩
    trivial

/-- Moving on with what is read now: it agrees with the store, whatever is pending. -/
theorem inv_stage {w : World} (h : w.Inv) {r : Reconciliation} (hsound : r.stage.Sound w.engine.table)
    (hagree : w.Pending ∨ r.stage.Agrees w.store.entries) :
    { w with running := some r }.Inv where
  seen := h.seen
  sound := by
    rintro _ ⟨⟩
    exact hsound
  current := hagree

/-- An accepted transaction leaves the planned rules as the managed ones. -/
theorem managed_of_accepted {writable : Bool} {e e' : Engine} {rules : List Rule}
    (hm : ∀ r ∈ rules, isManaged r.id = true)
    (h : (transact writable ⟨e.table.managed.map (·.id), rules⟩).run e = (.ok (), e')) :
    e'.table.managed ~ rules := by
  rw [run_transact, Table.apply, Table.remove_managed] at h
  cases hadd : Table.add e.table.foreign rules with
  | error fault =>
    rw [hadd] at h
    cases h
  | ok table =>
    obtain ⟨-, rfl⟩ := Table.add_eq_ok_iff.1 hadd
    rw [hadd] at h
    by_cases hw : CanWrite writable e
    · simp only [hw, if_true] at h
      obtain ⟨-, rfl⟩ := Prod.mk.inj h
      rw [holding, Table.managed_sorted_append hm]
      exact Table.sorted_perm _
    · simp only [hw, if_false] at h
      cases h

theorem inv_apply {w : World} (h : w.Inv) {b : Bool} {p : Plan} {removed : List Nat}
    (hr : w.running = some ⟨b, .listed p removed⟩) {writable : Bool} {e : Engine}
    (ha : (transact writable ⟨removed, p.rules.toList⟩).run w.engine = (.ok (), e)) :
    { w with engine := e, running := none }.Inv where
  seen := h.seen
  sound := by simp
  current := by
    obtain ⟨hm, rfl⟩ := h.sound _ hr
    refine h.current.imp_right fun hcur => ?_
    have hp : p.rules.toList = planned w.store.entries := (current_of_some hr).1 hcur
    rw [current_of_none rfl, ← hp]
    exact managed_of_accepted hm ha

/-- Every event keeps the invariant if its transaction is accepted. -/
theorem inv_step {w u : World} (h : w.Inv) {ev : Event} (ha : w.Accepts ev)
    (hs : w.step ev = some u) : u.Inv := by
  cases ev with
  | write new =>
    simp only [step] at hs
    split at hs
    · contradiction
    · cases hs
      exact inv_write h new
  | announce i =>
    obtain ⟨c, hc, rfl⟩ := Option.map_eq_some_iff.1 hs
    exact inv_announce h hc
  | receive => exact inv_receive h hs
  | start byWatcher => exact inv_start h hs
  | readSwitch =>
    simp only [step] at hs
    split at hs
    · cases hs
      split
      · next hon => exact inv_stage h trivial (Or.inr hon)
      · next hoff =>
        refine inv_stage h (by simp [Stage.Sound, Plan.empty]) (Or.inr ?_)
        rw [Stage.Agrees, ← rules_planFor, planFor, if_neg hoff]
    · contradiction
  | readMocks =>
    simp only [step] at hs
    split at hs
    · next b hr =>
      cases hs
      refine inv_stage h (Plan.sound_ofMocks _).managed (h.current.imp_right fun hcur => ?_)
      have hon : Mocks.isOn w.store.entries = true := (current_of_some hr).1 hcur
      rw [Stage.Agrees, ← rules_planFor, planFor, if_pos hon]
    · contradiction
  | readTable =>
    simp only [step] at hs
    split at hs
    · next b p hr =>
      cases hs
      exact inv_stage h ⟨h.sound _ hr, Table.ids_managed _⟩ (h.current.imp_right (current_of_some hr).1)
    · contradiction
  | apply writable =>
    simp only [step] at hs
    split at hs
    · next b p removed hr =>
      obtain ⟨e, he⟩ := ha b p removed hr
      rw [he] at hs
      cases hs
      exact inv_apply h hr he
    · contradiction

theorem Reaches.inv {w u : World} (hr : w.Reaches u) (h : w.Inv) : u.Inv := by
  induction hr with
  | refl => exact h
  | step ev _ ha hs ih => exact inv_step ih ha hs

/-- A world with a table that has the rules the store asks for, while no reconciliation runs. -/
structure Started (w : World) : Prop where
  table : w.engine.table.managed ~ planned w.store.entries
  seen : w.seen ≤ w.store.changes.sent
  running : w.running = none

theorem Started.inv {w : World} (h : w.Started) : w.Inv where
  seen := h.seen
  sound := by simp [h.running]
  current := Or.inr ((current_of_none h.running).2 h.table)

theorem Quiet.not_pending {w : World} (h : w.Quiet) : ¬w.Pending := by
  simp [Pending, h.unsent, h.unread, h.waiting]

/-- Whatever is written and read in whatever order: once all is quiet, the managed rules of the table
are those that the store asks for. -/
theorem managed_of_quiet {w u : World} (hw : w.Started) (hr : w.Reaches u) (hq : u.Quiet) :
    u.engine.table.managed ~ planned u.store.entries := by
  have hcur := (hr.inv hw.inv).current.resolve_left hq.not_pending
  exact (current_of_none hq.running).1 hcur

/-- The switch goes off after a reconciliation has found it on; the watcher makes up for that. -/
theorem managed_of_quiet_switched_off :
    let w : World := ⟨.inMemory, [], .inMemory, 0, false, none⟩
    ∃ u : World, w.Started ∧ w.Reaches u ∧ u.Quiet ∧
      Mocks.isOn u.store.entries = false ∧ u.engine.table.managed ~ planned u.store.entries := by
  intro w
  let off : Members := [(globalKey, .bool false)]
  let written : Store := .write .inMemory off
  let told : Store := written.announce ⟨[globalKey]⟩
  have hnone : (transact true ⟨[], []⟩).run .inMemory = (.ok (), .inMemory) := by
    have htable : Table.apply [] ⟨[], []⟩ = .ok [] := Table.add_eq_ok_iff.2
      ⟨⟨by decide, by decide, by decide, by simp, by decide⟩, by simp [Table.sorted, Table.remove]⟩
    rw [run_transact, inMemory, htable]
    rfl
  have happly {n : Nat} {b : Bool}
      (h : w.Reaches ⟨told, [], .inMemory, n, false, some ⟨b, .listed .empty []⟩⟩) :
      w.Reaches ⟨told, [], .inMemory, n, false, none⟩ := by
    refine h.step (.apply true) ?_ ?_
    · rintro _ _ _ ⟨⟩
      exact ⟨_, hnone⟩
    · simp only [World.step, Plan.empty, hnone]
  have hw : w.Started := ⟨by decide, by decide, rfl⟩
  have h₁ := Reaches.step (.start false) (.refl (w := w)) trivial rfl
  have h₂ := h₁.step .readSwitch trivial rfl
  have h₃ := h₂.step (.write off) trivial rfl
  have h₄ : w.Reaches ⟨written, [⟨[globalKey]⟩], .inMemory, 0, false,
      some ⟨false, .planned .empty⟩⟩ := h₃.step .readMocks trivial rfl
  have h₅ := h₄.step .readTable trivial rfl
  have h₆ : w.Reaches ⟨told, [], .inMemory, 0, false,
      some ⟨false, .listed .empty []⟩⟩ := h₅.step (.announce 0) trivial rfl
  have h₇ := happly h₆
  have h₈ := h₇.step .receive trivial rfl
  have h₉ := h₈.step (.start true) trivial rfl
  have h₁₀ := h₉.step .readSwitch trivial rfl
  have h₁₁ : w.Reaches ⟨told, [], .inMemory, 1, false, some ⟨true, .listed .empty []⟩⟩ :=
    h₁₀.step .readTable trivial rfl
  have h₁₂ := happly h₁₁
  have hq : World.Quiet ⟨told, [], .inMemory, 1, false, none⟩ := ⟨rfl, rfl, rfl, rfl⟩
  exact ⟨_, hw, h₁₂, hq, rfl, managed_of_quiet hw h₁₂ hq⟩

/-! ### Runs in which nothing interferes -/

/-- What a reconciliation reads, if nobody writes meanwhile. -/
def reads (entries : Members) : List Event :=
  if Mocks.isOn entries then [.readSwitch, .readMocks, .readTable] else [.readSwitch, .readTable]

/-- Its events in a row do what a reconciliation does at once. -/
theorem run_reconciliation {w : World} {byWatcher : Bool} (hr : w.running = none)
    (hw : byWatcher = true → w.waiting = true) (writable : Bool) :
    w.run (.start byWatcher :: reads w.store.entries ++ [.apply writable]) =
      some { w with
        waiting := w.waiting && !byWatcher
        engine := ((sync writable w.store.entries).run w.engine).2 } := by
  have hstart : (byWatcher && !w.waiting) = false := by
    cases byWatcher with
    | false => rfl
    | true => simp [hw rfl]
  rw [run_sync, ← rules_planFor, ← Table.ids_managed]
  cases hon : Mocks.isOn w.store.entries with
  | false =>
    simp [run, reads, step, start, planFor, hon, hr, hstart]
    rfl
  | true =>
    simp [run, reads, step, start, planFor, hon, hr, hstart]
    rfl

theorem run_append (w : World) (events more : List Event) :
    w.run (events ++ more) = (w.run events).bind fun u => u.run more := foldlM_append

theorem run_notice {w : World} (hr : w.running = none) (hw : w.waiting = false) {n : Notice}
    {seen : Nat} (hn : w.store.changes.receive? w.seen = some (n, seen)) :
    ∃ events, w.run events = some { w with
      seen
      engine := if concerns n then ((sync true w.store.entries).run w.engine).2 else w.engine } := by
  have hstep : w.run [.receive] = some { w with seen, waiting := concerns n } := by
    simp [run, step, receive, hr, hw, hn]
  cases hc : concerns n with
  | false => exact ⟨_, by rw [hstep, hc, if_neg Bool.false_ne_true, hw]⟩
  | true =>
    refine ⟨[.receive] ++ (.start true :: reads w.store.entries ++ [.apply true]), ?_⟩
    rw [run_append, hstep, hc, Option.bind_some, if_pos rfl, hw]
    exact run_reconciliation (w := { w with seen, waiting := true }) hr (fun _ => rfl) true

/-- A watcher that is left alone takes its notices one after the other and reconciles for each that
concerns it. -/
theorem run_watcher {w : World} (hr : w.running = none) (hw : w.waiting = false) :
    ∃ events seen, w.store.changes.unread seen = [] ∧
      w.run events = some { w with
        seen
        engine := follow w.store.entries (w.store.changes.unread w.seen) w.engine } := by
  induction hn : w.store.changes.unread w.seen generalizing w with
  | nil => exact ⟨[], w.seen, hn, rfl⟩
  | cons n notices ih =>
    rw [Channel.unread_eq] at hn
    cases hrec : w.store.changes.receive? w.seen with
    | none => simp [hrec] at hn
    | some next =>
      obtain ⟨n', seen⟩ := next
      simp only [hrec, cons.injEq] at hn
      obtain ⟨rfl, hn⟩ := hn
      obtain ⟨first, hfirst⟩ := run_notice hr hw hrec
      obtain ⟨events, seen', hs, hrun⟩ := ih (w := { w with seen, engine := _ }) hr hw hn
      refine ⟨first ++ events, seen', hs, ?_⟩
      rw [run_append, hfirst]
      exact hrun

end World
end MockRedirect
