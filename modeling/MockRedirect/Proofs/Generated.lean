import MockRedirect.Proofs.Fence
import MockRedirect.Proofs.Shared
import MockRedirect.Proofs.Status
/-! Clean trees: no noise in any object, and a status without errors. Whatever a model answers, the tree that is made of
its answer is clean, and so is every tree that a generator gives, alone or in the hands of many tasks. -/
namespace MockRedirect

/-! ### Members -/

namespace Members

variable {key : String} {value : Json} {ms : Members}

theorem mem_keys_put {k : String} (h : k ∈ keys (put key value ms)) : k = key ∨ k ∈ keys ms := by
  obtain ⟨m, hm, rfl⟩ := List.mem_map.1 h
  exact (mem_put hm).imp (congrArg Prod.fst) fun hms => List.mem_map_of_mem hms

end Members

namespace Json

/-! ### Pruned trees -/

variable {v : Json} {leaf : Json → Prop} {p : String → Prop} {drop : String → Bool}

/-- No dropped key is left in any object. -/
theorem every_prune (drop : String → Bool) (v : Json) :
    (v.prune drop).Every (fun ks => ∀ k ∈ ks, drop k = false) fun _ => True := by
  induction v using induct with
  | scalar v hv =>
    rw [prune_of_isScalar hv]
    exact .scalar hv trivial
  | arr xs ih =>
    rw [prune, pruneItems_eq_map, every_arr]
    simpa using ih
  | obj ms ih =>
    rw [prune, pruneMembers_eq_map, every_obj]
    constructor
    · intro k hk
      obtain ⟨m, hm, rfl⟩ := List.mem_map.1 hk
      obtain ⟨n, hn, rfl⟩ := List.mem_map.1 hm
      simpa using (List.mem_filter.1 hn).2
    · intro m hm
      obtain ⟨n, hn, rfl⟩ := List.mem_map.1 hm
      exact ih n (List.mem_filter.1 hn).1

/-- A tree without keys to be dropped is pruned already. -/
theorem prune_of_every (h : v.Every (fun ks => ∀ k ∈ ks, drop k = false) leaf) : v.prune drop = v := by
  induction h with
  | scalar hv _ => exact prune_of_isScalar hv drop
  | arr _ ih => rw [prune, pruneItems_eq_map, List.map_congr_left ih, List.map_id']
  | @obj ms hk _ ih =>
    have hfilter : ms.filter (!drop ·.1) = ms :=
      List.filter_eq_self.2 fun m hm => by simp [hk m.1 (List.mem_map_of_mem hm)]
    have hmap : ms.map (fun m => (m.1, m.2.prune drop)) = ms :=
      (List.map_congr_left fun m hm => by rw [ih m hm]).trans (List.map_id' ms)
    rw [prune, pruneMembers_eq_map, hfilter, hmap]

/-! ### The status -/

theorem Every.put {key : String} {value : Json} {ms : Members}
    (h : (Json.obj ms).Every (fun ks => ∀ k ∈ ks, p k) leaf) (hv : value.Every (fun ks => ∀ k ∈ ks, p k) leaf)
    (hkey : p key) : (Json.obj (Members.put key value ms)).Every (fun ks => ∀ k ∈ ks, p k) leaf := by
  rw [every_obj] at h ⊢
  constructor
  · intro k hk
    obtain rfl | hms := Members.mem_keys_put hk
    · exact hkey
    · exact h.1 k hms
  · intro m hm
    obtain rfl | hms := Members.mem_put hm
    · exact hv
    · exact h.2 m hms

/-- Zeroing the status brings no keys in but those of the status and of its error indicators. -/
theorem Every.zeroStatus (h : v.Every (fun ks => ∀ k ∈ ks, p k) leaf) (hzero : leaf (.int 0))
    (hp : ∀ k ∈ statusField :: statusErrorFields, p k) : v.zeroStatus.Every (fun ks => ∀ k ∈ ks, p k) leaf := by
  have hint : (Json.int 0).Every (fun ks => ∀ k ∈ ks, p k) leaf := .scalar trivial hzero
  cases v with
  | obj ms =>
    rw [Json.zeroStatus]
    split
    · next status hs =>
      have hstatus : (Json.obj status).Every (fun ks => ∀ k ∈ ks, p k) leaf :=
        (every_obj.1 h).2 _ (Members.mem_of_get? hs)
      exact h.put ((hstatus.put hint (hp _ (by decide))).put hint (hp _ (by decide))) (hp _ (by decide))
    · exact h
  | _ => exact h

/-- There is nothing to zero in a status without errors. -/
theorem StatusZeroed.zeroStatus_eq (h : v.StatusZeroed) : v.zeroStatus = v := by
  cases v with
  | obj ms =>
    rw [zeroStatus]
    split
    · next status hs =>
      obtain ⟨hmodule, hcode⟩ := h _ hs
      have hfold : statusErrorFields.foldl (fun acc key => Members.put key (.int 0) acc) status = status := by
        rw [statusErrorFields, List.foldl_cons, List.foldl_cons, List.foldl_nil, Members.put_of_get? hmodule,
          Members.put_of_get? hcode]
      rw [hfold, Members.put_of_get? hs]
    · rfl
  | _ => rfl

/-! ### Clean trees -/

/-- A tree that a model's answer may be turned into. -/
structure IsClean (v : Json) : Prop where
  /-- No object, however deep, has a key that starts with `@`, or that is a single space. -/
  keys : v.Every (fun ks => ∀ k ∈ ks, k.toList.head? ≠ some '@' ∧ k ≠ " ") fun _ => True
  status : v.StatusZeroed
  /-- Nothing is left to be pruned, and nothing to be zeroed. -/
  pruned : v.prune (fun k => Template.isNoise k.toList) = v
  settled : v.zeroStatus = v

theorem isNoise_eq_false {k : String} (h : Template.isNoise k.toList = false) :
    k.toList.head? ≠ some '@' ∧ k ≠ " " := by
  rw [Template.isNoise, Bool.or_eq_false_iff] at h
  refine ⟨by simpa [Template.isMetaKey, Template.metaMark] using h.1, ?_⟩
  rintro rfl
  exact absurd h.2 (by decide)

/-- A tree that is pruned first, and whose status is zeroed then. -/
theorem isClean_zeroStatus_prune (v : Json) :
    (v.prune fun k => Template.isNoise k.toList).zeroStatus.IsClean := by
  have hkeys := (every_prune (fun k => Template.isNoise k.toList) v).zeroStatus trivial (by decide)
  have hstatus := statusZeroed_zeroStatus (v.prune fun k => Template.isNoise k.toList)
  exact {
    keys := hkeys.imp (fun ks hks k hk => isNoise_eq_false (hks k hk)) fun _ => id
    status := hstatus
    pruned := prune_of_every hkeys
    settled := hstatus.zeroStatus_eq }

end Json

theorem Template.isClean_of_sanitize {s : List Char} {v : Json} (h : sanitize s = .ok v) : v.IsClean := by
  rw [sanitize] at h
  split at h
  · cases h
    exact Json.isClean_zeroStatus_prune _
  · cases h

/-! ### Generators -/

namespace Generator
open Document Text

/-- Whatever a computation does, the value that it gives is of a kind. -/
def Always {m : Type → Type} [Monad m] {α : Type} (p : α → Prop) (x : m α) : Prop :=
  ∃ y : m { a // p a }, Subtype.val <$> y = x

section
variable {m : Type → Type} [Monad m] [LawfulMonad m] {α β : Type} {p : α → Prop} {q : β → Prop}

theorem Always.pure {a : α} (h : p a) : Always p (Pure.pure a : m α) := ⟨Pure.pure ⟨a, h⟩, by simp⟩

theorem Always.of_bind (x : m α) {f : α → m β} (h : ∀ a, Always q (f a)) : Always q (x >>= f) := by
  choose y hy using h
  exact ⟨x >>= y, by rw [map_bind]; exact bind_congr hy⟩

theorem Always.bind {x : m α} {f : α → m β} (hx : Always p x) (h : ∀ a, p a → Always q (f a)) :
    Always q (x >>= f) := by
  obtain ⟨x', rfl⟩ := hx
  rw [bind_map_left]
  exact .of_bind x' fun a => h a.1 a.2

end

/-- A task that has not given a tree, or that has given a clean one. -/
def Task.GivesClean {σ : Type} (t : Task σ) : Prop := ∀ v, t = .done (.filled (.ok v)) → v.IsClean

variable {σ : Type} {t t' : Task σ} {g g' : Generator σ}

theorem Task.outcomeOf_ok (text : String) :
    outcomeOf (.ok text) = (Template.sanitize text.toList).mapError .malformed := by
  simp [outcomeOf, bind, Except.bind]

/-- The tree in a reply is clean. -/
theorem Task.givesClean_outcomeOf (reply : Except GenerationError String) :
    (Task.done (σ := σ) (.filled (outcomeOf reply))).GivesClean := by
  intro v hv
  cases reply with
  | error e => cases hv
  | ok text =>
    rw [outcomeOf_ok] at hv
    cases hs : Template.sanitize text.toList with
    | error e => simp [hs, Except.mapError] at hv
    | ok w =>
      obtain rfl : w = v := by simpa [hs, Except.mapError] using hv
      exact Template.isClean_of_sanitize hs

theorem Task.givesClean_afterSwap (old : Option σ) (next : Readiness) : (afterSwap old next).GivesClean := by
  cases old <;> exact fun _ => nofun

theorem Task.givesClean_afterAvailability (a : Except GenerationError Availability) :
    (afterAvailability a : Task σ).GivesClean := by
  rcases a with _ | _ | _ | _ | _ <;> exact fun _ => nofun

theorem Task.givesClean_afterDownload (r : Except GenerationError Unit) : (afterDownload r : Task σ).GivesClean := by
  cases r <;> exact fun _ => nofun

theorem Task.givesClean_afterOpening (r : Except GenerationError σ) : (afterOpening r).GivesClean := by
  cases r <;> exact fun _ => nofun

/-! ### One generator -/

theorem Task.givesClean_of_step (h : t.step g = some (t', g')) : t'.GivesClean := by
  cases t <;> simp only [step] at h
  case ending call reply =>
    cases h
    exact givesClean_outcomeOf reply
  case starting template =>
    split at h
    · cases h
      rintro _ ⟨⟩
    · split at h <;> cases h <;> rintro _ ⟨⟩
  case waiting call =>
    split at h <;> cases h
    rintro _ ⟨⟩
  case installing | emptying =>
    cases h
    exact givesClean_afterSwap _ _
  case settling | cancelling | dismissing =>
    cases h
    rintro _ ⟨⟩
  all_goals cases h

variable {m : Type → Type} [Monad m] [LawfulMonad m]

/-- Whatever the model answers, a task that goes on by itself gives nothing but clean trees. -/
theorem Task.always_givesClean_run (model : LanguageModel m σ) (t : Task σ) (g : Generator σ) (ht : t.GivesClean) :
    Always (fun r => r.1.GivesClean) (run model t g) := by
  induction t, g using run.induct with
  | case1 t g t' g' hs ih =>
    rw [run]
    split
    · next hs' =>
      cases hs.symm.trans hs'
      exact ih (givesClean_of_step hs)
    · next hs' => cases hs.symm.trans hs'
  | case2 g hs ih =>
    rw [run]
    exact .of_bind _ fun a => ih a (givesClean_afterAvailability a)
  | case3 g hs ih =>
    rw [run]
    exact .of_bind _ fun a => ih a (givesClean_afterDownload a)
  | case4 g hs ih =>
    rw [run]
    exact .of_bind _ fun a => ih a (givesClean_afterOpening a)
  | case5 g old next hs ih =>
    rw [run]
    exact .of_bind _ fun _ => ih fun _ => nofun
  | case6 g call s p hs ihReply ihWait =>
    rw [run]
    refine .of_bind _ fun reply? => ?_
    cases reply? with
    | some reply => exact ihReply reply fun _ => nofun
    | none => exact ihWait fun _ => nofun
  | case7 g t hs hprobing hfetching hopening hclosing hasking =>
    rw [run]
    split
    · next hs' => cases hs.symm.trans hs'
    · split
      · exact (hprobing hs rfl .rfl).elim
      · exact (hfetching hs rfl .rfl).elim
      · exact (hopening hs rfl .rfl).elim
      · exact (hclosing _ _ hs rfl .rfl).elim
      · exact (hasking _ _ _ hs rfl .rfl).elim
      · exact .pure (p := fun r : Task σ × Generator σ => r.1.GivesClean) ht

theorem always_isClean_generate (model : LanguageModel m σ) (template : List Char) (g : Generator σ) :
    Always (fun r => ∀ v, r.1 = some (.ok v) → v.IsClean) (generate model template g) := by
  refine (Task.always_givesClean_run model (.starting template) g fun _ => nofun).bind fun r hr => ?_
  split
  · next result _ =>
    refine .pure fun v hv => hr v ?_
    rw [← Option.some.inj hv]
  · exact .pure fun _ => nofun

/-! ### Many tasks -/

namespace Shared

theorem givesClean_of_advances {w w' : Shared} {t t' : Task Nat} (h : w.Advances t t' w') : t'.GivesClean := by
  cases h with
  | pass h =>
    cases h with
    | available a => exact Task.givesClean_afterAvailability a
    | fetched r => exact Task.givesClean_afterDownload r
    | refused e => exact Task.givesClean_afterOpening (.error e)
    | rejected | sent | answered => exact fun _ => nofun
  | install s => exact Task.givesClean_afterSwap _ _
  | empty => exact Task.givesClean_afterSwap _ _
  | finish call reply => exact Task.givesClean_outcomeOf reply
  | stop h _ | miss h _ => cases h <;> exact fun _ => nofun
  | create | close | settle | start => exact fun _ => nofun

theorem Reachable.givesClean {w : Shared} (hw : w.Reachable) : ∀ j ∈ w.jobs, j.task.GivesClean := by
  refine hw.invariant (P := fun w => ∀ j ∈ w.jobs, j.task.GivesClean) (fun j hj => absurd hj List.not_mem_nil)
    fun hv _ hs => ?_
  refine forall_jobs_of_step (P := fun j => j.task.GivesClean) hv (fun errand _ => ?_) ?_ hs
  · cases errand <;> exact fun _ => nofun
  · exact fun _ hadv => givesClean_of_advances hadv

end Shared

/-- Whatever text a model answers with: the tree that it is turned into is clean. So is each tree that filling in a
template gives, with any model, and each that any of the tasks gives that share a generator, in whatever order they take
their steps. -/
theorem isClean_of_answer :
    (∀ (s : List Char) (v : Json), Template.sanitize s = .ok v → v.IsClean) ∧
      (∀ (m : Type → Type) [Monad m] [LawfulMonad m] (σ : Type) (model : LanguageModel m σ) (template : List Char)
        (g : Generator σ), Always (fun r => ∀ v, r.1 = some (.ok v) → v.IsClean) (generate model template g)) ∧
      ∀ w : Shared, w.Reachable → ∀ j ∈ w.jobs, ∀ v, j.task = .done (.filled (.ok v)) → v.IsClean :=
  ⟨fun _ _ => Template.isClean_of_sanitize, fun _ _ _ _ => always_isClean_generate,
    fun _ hw j hj => hw.givesClean j hj⟩

/-- An answer with a meta key whose mark is escaped, and with an empty status. -/
def escapedAnswer : String := "\x7b\"\\u0040a\":1,\"ResponseStatus\":\x7b\x7d\x7d"

theorem parse_escapedAnswer :
    Json.parse escapedAnswer.toList = .ok (.obj [("@a", .int 1), ("ResponseStatus", .obj [])]) := by
  have hspace := Json.isSpace_nil
  have hword : Document.IsWord ['1'] := ⟨by decide, forall_mem_of_all (by decide)⟩
  have hmark : stringValue? "\\u0040a".toList = some "@a" := by decide +kernel
  have hstatus : stringValue? "ResponseStatus".toList = some "ResponseStatus" := by decide +kernel
  have hwhole : Style.strict.Whole escapedAnswer.toList
      (.record [("\\u0040a".toList, .word ['1']), ("ResponseStatus".toList, .record [])]) :=
    ⟨[], _, [], rfl, hspace, hspace, .record hspace
      (.member (Json.isBody_of_stringValue? hmark) hspace hspace (.word hword) hspace
        (.nextMember hspace (.member (Json.isBody_of_stringValue? hstatus) hspace hspace (.emptyRecord hspace) hspace
          .lastMember)))⟩
  have hvalue : (Document.record [("\\u0040a".toList, .word ['1']), ("ResponseStatus".toList, .record [])]).value? =
      some (.obj [("@a", .int 1), ("ResponseStatus", .obj [])]) := by
    simp only [value?, memberValues?, hmark, hstatus]
    rfl
  exact (Json.parse_of_whole hwhole hvalue).2 ⟨by decide, rfl⟩

theorem sanitize_escapedAnswer : Template.sanitize escapedAnswer.toList =
    .ok (.obj [("ResponseStatus", .obj [("ErrorModule", .int 0), ("ErrorCode", .int 0)])]) := by
  have htext : Template.answerText escapedAnswer.toList = escapedAnswer.toList := by decide +kernel
  rw [Template.sanitize, htext, parse_escapedAnswer]
  rfl

/-- A model that always answers this. -/
def escapedModel : LanguageModel Id Nat where
  availability := .ok .available
  requestDownload := .ok ()
  openSession _ := .ok 0
  ask _ _ := some (.ok escapedAnswer)
  close _ := ()

/-- A probe, and a template that is filled in after it with an answer. -/
def answeredWith (text : String) : List Move :=
  [.call .probe, .go 0 (.availability (.ok .available)), .go 0 .session, .go 0 .turn, .go 0 .turn,
    .call (.generate ['0']), .go 1 .turn, .go 1 .sent, .go 1 (.reply (.ok text)), .go 1 .turn]

theorem run_answeredWith (text : String) : ∃ w, Shared.new.run (answeredWith text) = some w ∧
    w.jobs[1]? = some ⟨.generate ['0'], .done (.filled (Task.outcomeOf (.ok text)))⟩ := ⟨_, rfl, rfl⟩

theorem isClean_of_answer_escaped : ∃ v, Template.sanitize escapedAnswer.toList = .ok v ∧
    v = .obj [("ResponseStatus", .obj [("ErrorModule", .int 0), ("ErrorCode", .int 0)])] ∧ v.IsClean ∧
    (∃ w, Shared.new.run (answeredWith escapedAnswer) = some w ∧
      ⟨.generate ['0'], .done (.filled (.ok v))⟩ ∈ w.jobs ∧ v.IsClean) ∧
    Always (fun r => ∀ v, r.1 = some (.ok v) → v.IsClean)
      (generate escapedModel ['0'] ⟨.ready, some 0, none, 0, []⟩) := by
  obtain ⟨hsanitize, hgenerate, hshared⟩ := isClean_of_answer
  obtain ⟨w, hw, hdone⟩ := run_answeredWith escapedAnswer
  rw [Task.outcomeOf_ok, sanitize_escapedAnswer] at hdone
  have hmem := List.mem_of_getElem? hdone
  refine ⟨_, sanitize_escapedAnswer, rfl, hsanitize _ _ sanitize_escapedAnswer, ⟨w, hw, hmem, ?_⟩,
    hgenerate Id Nat _ _ _⟩
  exact hshared w (Shared.reachable_of_run hw) _ hmem _ rfl

end Generator
end MockRedirect
