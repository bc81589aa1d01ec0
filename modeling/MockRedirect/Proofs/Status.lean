import MockRedirect.Proofs.Place
import MockRedirect.Proofs.TemplateForm
/-! The error indicators of the status. They are zero when a draft is opened, no edit can make them anything else, and
so they are zero in every record that is written from a draft or through one. -/
namespace MockRedirect

namespace Json

/-- No object, or an object whose error indicators are both the number zero. -/
def NoError : Json → Prop
  | .obj status =>
    Members.get? "ErrorModule" status = some (.int 0) ∧ Members.get? "ErrorCode" status = some (.int 0)
  | _ => True

/-- If the top-level status is an object, its error indicators are both the number zero. -/
def StatusZeroed (v : Json) : Prop := ∀ status, v.field? "ResponseStatus" = some status → status.NoError

variable {v w root value : Json} {ms : Members} {path : FieldPath} {name : String}

/-! ### Objects -/

theorem noError_of_isScalar (h : v.IsScalar) : v.NoError := by
  cases v with
  | obj ms => exact h.elim
  | _ => trivial

theorem noError_obj : (Json.obj ms).NoError ↔ ∀ key ∈ statusErrorFields, Members.get? key ms = some (.int 0) := by
  simp [NoError, statusErrorFields]

theorem NoError.put (h : (Json.obj ms).NoError) (hv : name ∈ statusErrorFields → value = .int 0) :
    (Json.obj (Members.put name value ms)).NoError := by
  rw [noError_obj] at h ⊢
  intro key hkey
  rw [Members.get?_put]
  split
  · next heq => rw [hv (heq ▸ hkey)]
  · exact h key hkey

theorem statusZeroed_arr (xs : List Json) : (Json.arr xs).StatusZeroed := fun _ => nofun

theorem StatusZeroed.put (h : (Json.obj ms).StatusZeroed) (hv : name = statusField → value.NoError) :
    (Json.obj (Members.put name value ms)).StatusZeroed := by
  intro status hstatus
  rw [field?, Members.get?_put] at hstatus
  split at hstatus
  · next heq =>
    cases hstatus
    exact hv heq
  · exact h status hstatus

theorem statusZeroed_zeroStatus (v : Json) : v.zeroStatus.StatusZeroed := by
  cases v with
  | obj ms =>
    rw [zeroStatus]
    split
    · intro u hu
      rw [field?, ← statusField, Members.get?_put, if_pos rfl] at hu
      cases hu
      simp [NoError, statusErrorFields, Members.get?_put]
    · next hnone =>
      intro u hu
      cases u with
      | obj status => exact absurd hu (hnone status)
      | _ => trivial
  | _ => rintro _ ⟨⟩

/-! ### Changes at a path -/

/-- There is nothing inside a scalar. -/
theorem modifyAt?_of_isScalar {f : Json → Option Json} (hv : v.IsScalar) (hf : f v = none) (path : FieldPath) :
    modifyAt? f path v = none := by
  cases path with
  | nil => exact hf
  | cons s path => cases s <;> cases v <;> first | rfl | exact hv.elim

/-- What a change may do for the indicators to stay zero. It has no effect on a number, so that it does not reach into
an indicator. -/
structure KeepsStatus (f : Json → Option Json) : Prop where
  root : ∀ {v w}, v.StatusZeroed → f v = some w → w.StatusZeroed
  status : ∀ {v w}, v.NoError → f v = some w → w.NoError
  indicator : f (.int 0) = none

variable {f : Json → Option Json}

theorem NoError.modifyAt? (hf : KeepsStatus f) (h : v.NoError) (hw : Json.modifyAt? f path v = some w) :
    w.NoError := by
  cases path with
  | nil => exact hf.status h hw
  | cons s path =>
    cases s with
    | key name =>
      cases v with
      | obj ms =>
        obtain ⟨u, hu, hw⟩ := Option.bind_eq_some_iff.1 hw
        obtain ⟨u', hu', hw⟩ := Option.bind_eq_some_iff.1 hw
        cases hw
        refine h.put fun hname => ?_
        cases hu.symm.trans (noError_obj.1 h name hname)
        rw [modifyAt?_of_isScalar (v := .int 0) trivial hf.indicator] at hu'
        contradiction
      | _ => contradiction
    | index i =>
      cases v with
      | arr xs =>
        obtain ⟨u, -, hw⟩ := Option.bind_eq_some_iff.1 hw
        obtain ⟨u', -, hw⟩ := Option.bind_eq_some_iff.1 hw
        cases hw
        trivial
      | _ => contradiction

theorem StatusZeroed.modifyAt? (hf : KeepsStatus f) (h : v.StatusZeroed)
    (hw : Json.modifyAt? f path v = some w) : w.StatusZeroed := by
  cases path with
  | nil => exact hf.root h hw
  | cons s path =>
    cases s with
    | key name =>
      cases v with
      | obj ms =>
        obtain ⟨u, hu, hw⟩ := Option.bind_eq_some_iff.1 hw
        obtain ⟨u', hu', hw⟩ := Option.bind_eq_some_iff.1 hw
        cases hw
        refine h.put fun hname => ?_
        subst hname
        exact (h u hu).modifyAt? hf hu'
      | _ => contradiction
    | index i =>
      cases v with
      | arr xs =>
        obtain ⟨u, -, hw⟩ := Option.bind_eq_some_iff.1 hw
        obtain ⟨u', -, hw⟩ := Option.bind_eq_some_iff.1 hw
        cases hw
        exact statusZeroed_arr _
      | _ => contradiction

/-! ### Edits -/

/-- A scalar may be put anywhere, except that an indicator only takes a zero. -/
theorem keepsStatus_putChild? {s : Segment} (hv : value.IsScalar)
    (hzero : ∀ name ∈ statusErrorFields, s = .key name → value = .int 0) : KeepsStatus (putChild? s value) where
  root {v w} h hw := by
    cases v with
    | obj ms =>
      cases s with
      | key name =>
        cases hw
        exact h.put fun _ => noError_of_isScalar hv
      | index i => contradiction
    | arr xs =>
      cases s with
      | key name => contradiction
      | index i =>
        obtain ⟨-, rfl⟩ : i < xs.length ∧ Json.arr (xs.set i value) = w := by simpa [putChild?] using hw
        exact statusZeroed_arr _
    | _ => contradiction
  status {v w} h hw := by
    cases v with
    | obj ms =>
      cases s with
      | key name =>
        cases hw
        exact h.put fun hname => hzero name hname rfl
      | index i => contradiction
    | arr xs =>
      cases s with
      | key name => contradiction
      | index i =>
        obtain ⟨-, rfl⟩ : i < xs.length ∧ Json.arr (xs.set i value) = w := by simpa [putChild?] using hw
        trivial
    | _ => contradiction
  indicator := rfl

/-- Changes the elements of an array; nothing else is an array. -/
def onArray (g : List Json → List Json) : Json → Option Json
  | .arr xs => some (.arr (g xs))
  | _ => none

theorem keepsStatus_onArray (g : List Json → List Json) : KeepsStatus (onArray g) where
  root {v w} _ hw := by
    cases v with
    | arr xs =>
      cases hw
      exact statusZeroed_arr _
    | _ => contradiction
  status {v w} _ hw := by
    cases v with
    | arr xs =>
      cases hw
      trivial
    | _ => contradiction
  indicator := rfl

/-- Whatever is typed for an indicator is taken for zero. -/
theorem coerce_of_indicator (hname : name ∈ statusErrorFields) (hlast : path.getLast? = some (.key name))
    (raw : String) (current : Json) : coerce path raw current = .int 0 := by
  have hany : (FieldPath.lastKey? path).any (statusErrorFields.contains ·) = true := by
    simpa [FieldPath.lastKey?, hlast] using hname
  rw [coerce, if_pos hany]

theorem StatusZeroed.setField (h : root.StatusZeroed) {raw : String} {current : Json}
    (hw : root.setField path (coerce path raw current) = .ok w) : w.StatusZeroed := by
  rw [Json.setField, orNoField_eq_ok] at hw
  split at hw
  · next s hlast =>
    refine h.modifyAt? (keepsStatus_putChild? (isScalar_coerce ..) fun name hname hs => ?_) hw
    exact coerce_of_indicator hname (hs ▸ hlast) raw current
  · contradiction

theorem StatusZeroed.pushItem (h : root.StatusZeroed) {sample? : Option Json}
    (hw : root.pushItem path sample? = .ok w) : w.StatusZeroed := by
  rw [Json.pushItem, orNoField_eq_ok] at hw
  exact h.modifyAt? (keepsStatus_onArray fun xs => xs ++ [newItem xs path sample?]) hw

theorem StatusZeroed.removeItem (h : root.StatusZeroed) {i : Nat} (hw : root.removeItem path i = .ok w) :
    w.StatusZeroed := by
  rw [Json.removeItem] at hw
  split at hw
  · next xs hat =>
    split at hw
    · rw [orNoField_eq_ok] at hw
      have hcongr : Json.modifyAt? (onArray (·.eraseIdx i)) path root = some w := by
        rw [← hw]
        exact modifyAt?_congr hat rfl
      exact h.modifyAt? (keepsStatus_onArray _) hcongr
    · contradiction
  · contradiction

end Json

/-! ### Drafts -/

namespace Draft

/-- An edit of a draft, with its arguments. -/
inductive Edit where
  | setField (path raw : String)
  | pushItem (path : String)
  | removeItem (path : String) (i : Nat)

def Edit.apply : Edit → Draft → Except InputError Draft
  | setField path raw, d => d.setField path raw
  | pushItem path, d => d.pushItem path
  | removeItem path i, d => d.removeItem path i

/-- The draft after an edit; one that fails changes nothing. -/
def after (d : Draft) (e : Edit) : Draft :=
  match e.apply d with
  | .ok d' => d'
  | .error _ => d

/-- What can be made of the drafts that are composed, generated or opened, by any edits. -/
inductive Reachable : Draft → Prop
  | compose {url template : String} {fallback : Verb} {d : Draft} (h : Draft.compose url fallback template = .ok d) :
    Reachable d
  | ofTree {url : String} {fallback : Verb} {tree : Json} {d : Draft} (h : Draft.ofTree url fallback tree = .ok d) :
    Reachable d
  | ofMock (m : Mock) : Reachable (Draft.ofMock m)
  | edited {d : Draft} (h : Reachable d) (e : Edit) : Reachable (d.after e)

variable {d d' : Draft}

theorem Reachable.apply (h : d.Reachable) {e : Edit} (hd : e.apply d = .ok d') : d'.Reachable := by
  have hafter : d.after e = d' := by rw [after, hd]
  exact hafter ▸ h.edited e

/-- One edit, if it does not fail. -/
theorem statusZeroed_of_apply {e : Edit} (h : d.body.StatusZeroed) (hd : e.apply d = .ok d') :
    d'.body.StatusZeroed := by
  cases e with
  | setField path raw =>
    obtain ⟨p, -, hd⟩ := bind_eq_ok.1 hd
    split at hd
    · contradiction
    · obtain ⟨body, hbody, hd⟩ := bind_eq_ok.1 hd
      cases hd
      exact h.setField hbody
  | pushItem path =>
    obtain ⟨p, -, hd⟩ := bind_eq_ok.1 hd
    obtain ⟨body, hbody, hd⟩ := bind_eq_ok.1 hd
    cases hd
    exact h.pushItem hbody
  | removeItem path i =>
    obtain ⟨p, -, hd⟩ := bind_eq_ok.1 hd
    obtain ⟨body, hbody, hd⟩ := bind_eq_ok.1 hd
    cases hd
    exact h.removeItem hbody

theorem Reachable.statusZeroed (h : d.Reachable) : d.body.StatusZeroed := by
  induction h with
  | compose h =>
    obtain ⟨_, e, -, -, rfl⟩ := exists_tree_of_compose h
    exact Json.statusZeroed_zeroStatus _
  | ofTree h =>
    obtain ⟨e, -, rfl⟩ := exists_endpoint_of_ofTree h
    exact Json.statusZeroed_zeroStatus _
  | ofMock m => exact Json.statusZeroed_zeroStatus m.body
  | @edited d _ e ih =>
    rw [after]
    split
    · next hd => exact statusZeroed_of_apply ih hd
    · exact ih

end Draft

/-! ### Records -/

namespace Call
open Store

/-- The calls that write bodies from drafts, or edit them through one. -/
def WritesDrafts : Call → Prop
  | saveDraft d _ => d.Reachable
  | addAll ds _ => ∀ d ∈ ds, d.Reachable
  | updateField _ _ _ | pushItem _ _ | removeItem _ _ _ => True
  | _ => False

variable {c : Call} {a : c.Answer} {rs rs' : Records}

theorem exists_body_of_mem_fromDrafts {draw : Nat → MockId} {i : Nat} {taken : List MockId} {ds : List Draft}
    {m : Mock} (h : m ∈ Mocks.fromDrafts draw i taken ds) : ∃ d ∈ ds, m.body = d.body := by
  induction ds generalizing i taken with
  | nil => contradiction
  | cons d ds ih =>
    obtain rfl | h := List.mem_cons.1 h
    · exact ⟨d, List.mem_cons_self, rfl⟩
    · obtain ⟨d', hd', hm⟩ := ih h
      exact ⟨d', List.mem_cons_of_mem _ hd', hm⟩

theorem statusZeroed_of_edits {old new : Mock} (h : Edits old c new) (hc : c.WritesDrafts) :
    new.body.StatusZeroed := by
  cases h with
  | @updateField id path raw d h => exact ((Draft.Reachable.ofMock old).apply (e := .setField path raw) h).statusZeroed
  | @pushItem id path d h => exact ((Draft.Reachable.ofMock old).apply (e := .pushItem path) h).statusZeroed
  | @removeItem id path i d h => exact ((Draft.Reachable.ofMock old).apply (e := .removeItem path i) h).statusZeroed
  | toggle _ | updateVerb _ _ | updateUrl _ => exact hc.elim

theorem answered_edit {e : MockEdit c.Answer} (he : c.edit? = some e) (hc : c.WritesDrafts) (old new : Mock) :
    c.answered (e.reply old new) = [new] := by
  cases c with
  | updateField _ _ _ | pushItem _ _ | removeItem _ _ _ =>
    cases he
    rfl
  | saveDraft _ _ | addAll _ _ => contradiction
  | _ => exact hc.elim

/-- The mocks that such a call answers. -/
theorem statusZeroed_of_answered (h : c.Changes rs a rs') (hc : c.WritesDrafts) :
    ∀ m ∈ c.answered a, m.body.StatusZeroed := by
  intro m hm
  cases h with
  | saveDraft d drawn =>
    obtain rfl := List.mem_singleton.1 hm
    exact Draft.Reachable.statusZeroed hc
  | addAll ds draw =>
    obtain ⟨d, hd, hbody⟩ := exists_body_of_mem_fromDrafts hm
    exact hbody ▸ (hc d hd).statusZeroed
  | edit he _ hnew =>
    rw [answered_edit he hc] at hm
    obtain rfl := List.mem_singleton.1 hm
    exact statusZeroed_of_edits (edits_of_edit? he hnew) hc
  | save _ | delete _ | deleteAll => exact hc.elim

/-- Such a call puts nothing into the list but the mocks that it answers. -/
theorem mem_or_answered (h : c.Changes rs a rs') (hc : c.WritesDrafts) {r : Record} (hr : r ∈ rs') :
    r ∈ rs ∨ ∃ m ∈ c.answered a, r = .mock m := by
  cases h with
  | saveDraft d drawn => exact (Records.mem_put hr).imp_right fun h => ⟨_, List.mem_singleton_self _, h⟩
  | addAll ds draw =>
    refine (List.mem_append.1 hr).imp_right fun h => ?_
    obtain ⟨m, hm, rfl⟩ := List.mem_map.1 h
    exact ⟨m, hm, rfl⟩
  | edit he _ _ =>
    rw [answered_edit he hc]
    exact (Records.mem_replace hr).imp_right fun h => ⟨_, List.mem_singleton_self _, h⟩
  | save _ | delete _ | deleteAll => exact hc.elim

/-- Such a call changes the list, if it succeeds. -/
theorem changes_of_writes {entries new : Members} (h : c.Writes entries a new) (hc : c.WritesDrafts) :
    ∃ rs, c.Changes (.ofEntries entries) a rs ∧ new = rs.toEntries := by
  cases h with
  | records h => exact ⟨_, h, rfl⟩
  | read hread _ => cases c <;> first | exact hread.elim | exact hc.elim
  | seed _ => exact hc.elim
  | setGlobal _ => exact hc.elim

end Call

namespace Store

/-- Whatever edits have been made on a draft, the error indicators of its status are zero. They are zero in each mock
that is saved from a draft, imported, or edited in the store; these are written as they are answered, and all else that
is written was there before. -/
theorem statusZeroed_of_drafts :
    (∀ d : Draft, d.Reachable → d.body.StatusZeroed) ∧
      ∀ (s t : Store) (writable : Bool) (c : Call) (a : c.Answer), c.WritesDrafts →
        s.attempt writable c.operation = (.ok a, t) →
        (∀ m ∈ c.answered a, m.body.StatusZeroed ∧ m.toJson ∈ Records.stored t.entries) ∧
          ∀ v ∈ Records.stored t.entries,
            (∃ r ∈ Records.ofEntries s.entries, v = r.toJson) ∨ ∃ m ∈ c.answered a, v = m.toJson := by
  refine ⟨fun d hd => hd.statusZeroed, fun s t writable c a hc ht => ?_⟩
  obtain ⟨e, he⟩ | ⟨a', new, hw, hok⟩ := Call.attempt_cases writable c s
  · cases he.symm.trans ht
  cases hok.symm.trans ht
  obtain ⟨rs, hrs, rfl⟩ := Call.changes_of_writes hw hc
  rw [Records.stored_set]
  refine ⟨fun m hm => ⟨Call.statusZeroed_of_answered hrs hc m hm, ?_⟩, fun v hv => ?_⟩
  · exact List.mem_map_of_mem (f := Record.toJson) (Call.mem_of_answered hrs m hm)
  · obtain ⟨r, hr, rfl⟩ := List.mem_map.1 hv
    obtain hold | ⟨m, hm, rfl⟩ := Call.mem_or_answered hrs hc hr
    · exact .inl ⟨r, hold, rfl⟩
    · exact .inr ⟨m, hm, rfl⟩

/-- A tree with an error. -/
def failing : Json := .obj [("ResponseStatus", .obj [("ErrorCode", .int 5)]), ("a", .arr [])]

/-- A draft for it. -/
def failingDraft : Draft := ⟨none, "/a", "/a?MT=GET", .get, failing.zeroStatus, failing.zeroStatus⟩

/-- An error is typed in, an edit fails because the status is no list, and an element is added to the list. -/
def failingEdited : Draft :=
  ((failingDraft.after (.setField "ResponseStatus.ErrorCode" "7")).after (.pushItem "ResponseStatus")).after
    (.pushItem "a")

theorem statusZeroed_of_drafts_failing : Draft.ofTree "/a" .get failing = .ok failingDraft ∧
    failingEdited.body = .obj [("ResponseStatus", .obj [("ErrorCode", .int 0), ("ErrorModule", .int 0)]),
      ("a", .arr [.obj []])] ∧
    failingEdited.body.StatusZeroed ∧
      ∃ m t, inMemory.attempt true (Mocks.saveDraft failingEdited ⟨5⟩) = (.ok m, t) ∧ m.body.StatusZeroed ∧
        m.toJson ∈ Records.stored t.entries := by
  have htree : Draft.ofTree "/a" .get failing = .ok failingDraft := by rfl
  have hreach : failingEdited.Reachable := (((Draft.Reachable.ofTree htree).edited _).edited _).edited _
  obtain ⟨hdrafts, hcalls⟩ := statusZeroed_of_drafts
  have hmock := (hcalls inMemory _ true (.saveDraft failingEdited ⟨5⟩) _ hreach rfl).1 _ (List.mem_singleton_self _)
  exact ⟨htree, rfl, hdrafts _ hreach, _, _, rfl, hmock.1, hmock.2⟩

end Store
end MockRedirect
