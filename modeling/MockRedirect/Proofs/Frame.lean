import MockRedirect.Proofs.Preserve
/-! A call touches only the mocks that it is about. The elements of the stored list that are no mocks stay
as they are and where they are; all other mocks are the same, in the same order; an edited mock keeps its
place, and new ones are added at the end. -/
namespace MockRedirect
open List Store

/-! ### Lists of elements -/

/-- What may become of an element that is not touched: one that is no mock stays as it stands, and a mock
may be written in another form, but it is the same mock. -/
def Record.Kept (v w : Json) : Prop :=
  match Mock.decoder.ofJson? v with
  | none => w = v
  | some m => Mock.decoder.ofJson? w = some m

theorem Record.kept_of_ofJson_eq {v w : Json} (h : ofJson w = ofJson v) : Kept v w := by
  unfold Kept
  cases hv : Mock.decoder.ofJson? v with
  | none =>
    have hr : ofJson v = .unreadable v := by rw [ofJson, hv]
    exact (ofJson_eq_unreadable (h.trans hr)).symm
  | some m =>
    have hr : ofJson v = .mock m := by rw [ofJson, hv]
    exact ofJson_eq_mock (h.trans hr)

namespace Records

/-- The mocks in a list of elements. -/
def readable (vs : List Json) : List Mock := vs.filterMap Mock.decoder.ofJson?

theorem mock?_ofJson (v : Json) : (Record.ofJson v).mock? = Mock.decoder.ofJson? v := by
  unfold Record.ofJson
  cases Mock.decoder.ofJson? v <;> rfl

theorem mocks_map_ofJson (vs : List Json) : mocks (vs.map Record.ofJson) = readable vs := by
  rw [mocks, filterMap_map]
  exact filterMap_congr fun v _ => mock?_ofJson v

theorem kept_of_map_eq {vs ws : List Json} (h : ws.map Record.ofJson = vs.map Record.ofJson) :
    Forall₂ Record.Kept vs ws := by
  induction vs generalizing ws with
  | nil =>
    obtain rfl := map_eq_nil_iff.1 h
    exact .nil
  | cons v vs ih =>
    obtain ⟨w, ws, rfl, hw, hws⟩ := map_eq_cons_iff.1 h
    exact .cons (Record.kept_of_ofJson_eq hw) (ih hws)

/-- The first mock of an id is replaced in its place, and everything else is kept. -/
structure Replaced (id : MockId) (old new : Mock) (vs ws : List Json) : Prop where
  ids : old.id = id ∧ new.id = id
  place : ∃ pre v post pre' w post', vs = pre ++ v :: post ∧ ws = pre' ++ w :: post' ∧
    Forall₂ Record.Kept pre pre' ∧ Forall₂ Record.Kept post post' ∧
    Mock.decoder.ofJson? v = some old ∧ Mock.decoder.ofJson? w = some new ∧
    ∀ m ∈ readable pre, m.id ≠ id
  others : (readable ws).filter (·.id ≠ id) = (readable vs).filter (·.id ≠ id)

/-- Everything is kept, and mocks are added at the end. -/
structure Appended (added : List Mock) (vs ws : List Json) : Prop where
  place : ∃ kept new, ws = kept ++ new ∧ Forall₂ Record.Kept vs kept ∧
    new.map Mock.decoder.ofJson? = added.map some
  mocks : readable ws = readable vs ++ added

/-- The mocks of an id are dropped, all of them, and everything else is kept. -/
structure Removed (id : MockId) (vs ws : List Json) : Prop where
  place : Forall₂ Record.Kept (vs.filter fun v => (Mock.decoder.ofJson? v).all (·.id ≠ id)) ws
  mocks : readable ws = (readable vs).filter (·.id ≠ id)

/-- A mock that is saved takes the place of the one with its id, or it is added. -/
def Saved (m : Mock) (vs ws : List Json) : Prop :=
  (∃ old, Replaced m.id old m vs ws) ∨ (m.id ∉ (readable vs).map (·.id) ∧ Appended [m] vs ws)

variable {vs ws : List Json} {id : MockId} {old new m : Mock} {rs : Records}

theorem Replaced.mem (h : Replaced id old new vs ws) : old.id ∈ (readable vs).map (·.id) := by
  obtain ⟨pre, v, post, _, _, _, rfl, -, -, -, hv, -⟩ := h.place
  exact mem_map_of_mem (mem_filterMap.2 ⟨v, by simp, hv⟩)

theorem replaced_of_replace (hvs : vs.map Record.ofJson = rs) (hold : rs.find? id = some old)
    (hnew : new.id = id) (hws : ws.map Record.ofJson = rs.replace id new) :
    Replaced id old new vs ws := by
  subst hvs
  obtain ⟨pr, po, heq, hreplace, hid, hfirst⟩ := replace_of_find? hold new
  rw [hreplace] at hws
  obtain ⟨pre, _, rfl, rfl, h⟩ := map_eq_append_iff.1 heq
  obtain ⟨v, post, rfl, hv, rfl⟩ := map_eq_cons_iff.1 h
  obtain ⟨pre', _, rfl, hpre, h⟩ := map_eq_append_iff.1 hws
  obtain ⟨w, post', rfl, hw, hpost⟩ := map_eq_cons_iff.1 h
  have hv := Record.ofJson_eq_mock hv
  have hw := Record.ofJson_eq_mock hw
  refine ⟨⟨hid, hnew⟩, ⟨pre, v, post, pre', w, post', rfl, rfl, kept_of_map_eq hpre,
    kept_of_map_eq hpost, hv, hw, ?_⟩, ?_⟩
  · intro m hm hmid
    rw [← mocks_map_ofJson, mocks, mem_filterMap] at hm
    obtain ⟨r, hr, hm⟩ := hm
    cases r with
    | unreadable v => contradiction
    | mock m' =>
      cases hm
      exact absurd (hfirst _ hr) (by simp [Record.hasId, hmid])
  · have hpre : readable pre' = readable pre := by rw [← mocks_map_ofJson, hpre, mocks_map_ofJson]
    have hpost : readable post' = readable post := by rw [← mocks_map_ofJson, hpost, mocks_map_ofJson]
    unfold readable at *
    simp [hv, hw, hpre, hpost, hid, hnew]

theorem appended_of_append {added : List Mock} (hvs : vs.map Record.ofJson = rs)
    (hws : ws.map Record.ofJson = rs ++ added.map Record.mock) : Appended added vs ws := by
  subst hvs
  obtain ⟨kept, new, rfl, hkept, hnew⟩ := map_eq_append_iff.1 hws
  have hread : new.map Mock.decoder.ofJson? = added.map some := by
    have h := congrArg (map Record.mock?) hnew
    rw [map_map, map_map] at h
    exact (map_congr_left fun v _ => (mock?_ofJson v).symm).trans h
  refine ⟨⟨kept, new, rfl, kept_of_map_eq hkept, hread⟩, ?_⟩
  have hadded : readable new = added := by
    rw [← mocks_map_ofJson, hnew, mocks, filterMap_map]
    exact filterMap_some
  have hkept : readable kept = readable vs := by rw [← mocks_map_ofJson, hkept, mocks_map_ofJson]
  rw [← hadded, ← hkept, readable, filterMap_append]
  rfl

theorem removed_of_remove (hvs : vs.map Record.ofJson = rs)
    (hws : ws.map Record.ofJson = rs.remove id) : Removed id vs ws := by
  subst hvs
  have hid : ∀ v, (!(Record.ofJson v).hasId id) = (Mock.decoder.ofJson? v).all (·.id ≠ id) := by
    intro v
    unfold Record.ofJson
    cases Mock.decoder.ofJson? v <;> simp [Record.hasId]
  have hkept : ws.map Record.ofJson =
      (vs.filter fun v => (Mock.decoder.ofJson? v).all (·.id ≠ id)).map Record.ofJson := by
    rw [hws, remove, filter_map]
    congr 1
    exact filter_congr fun v _ => hid v
  refine ⟨kept_of_map_eq hkept, ?_⟩
  rw [← mocks_map_ofJson, hkept, mocks_map_ofJson, readable, readable, filterMap_filter, filter_filterMap]
  refine filterMap_congr fun v _ => ?_
  cases Mock.decoder.ofJson? v <;> simp [Option.filter]

theorem saved_of_put (hvs : vs.map Record.ofJson = rs) (hws : ws.map Record.ofJson = rs.put m) :
    Saved m vs ws := by
  obtain ⟨old, hold, heq⟩ | ⟨hnew, heq⟩ := put_cases rs m
  · exact .inl ⟨old, replaced_of_replace hvs hold rfl (hws.trans heq)⟩
  · have happended : Appended [m] vs ws := appended_of_append hvs (hws.trans heq)
    rw [← hvs, ids, mocks_map_ofJson] at hnew
    exact .inr ⟨hnew, happended⟩

end Records

/-! ### Calls -/

namespace Call
open Records

/-- What a call that succeeds makes of the stored list, with its answer. -/
def Effect (vs ws : List Json) : (c : Call) → c.Answer → Prop
  | save m, a => a = m ∧ Saved m vs ws
  | saveDraft d drawn, m =>
    m = d.toMock drawn ((readable vs).map (·.id)) ∧ Saved m vs ws ∧
      (d.id = none → Appended [m] vs ws)
  | addAll ds draw, ms =>
    ms = Mocks.fromDrafts draw 0 ((readable vs).map (·.id)) ds ∧ Appended ms vs ws
  | delete id, _ => id ∈ (readable vs).map (·.id) ∧ Removed id vs ws
  | deleteAll, _ => ws = []
  | seed, _ | list, _ | get _, _ | globalEnabled, _ | setGlobal _, _ => ws = vs
  | c, a => ∃ e old new, c.edit? = some e ∧ e.apply old = .ok new ∧ a = e.reply old new ∧
    Replaced e.id old new vs ws

variable {c : Call} {a : c.Answer} {vs ws : List Json} {rs : Records} {entries : Members}

theorem effect_of_edit {e : MockEdit c.Answer} {old new : Mock} (hc : c.edit? = some e)
    (hnew : e.apply old = .ok new) (h : Replaced e.id old new vs ws) :
    c.Effect vs ws (e.reply old new) := by
  cases c with
  | toggle _ | updateVerb _ _ | updateUrl _ _ | updateField _ _ _ | pushItem _ _ | removeItem _ _ _ =>
    exact ⟨e, old, new, hc, hnew, rfl, h⟩
  | _ => contradiction

theorem effect_of_changes (h : c.Changes (.ofEntries entries) a rs) (hret : c.Returns entries)
    (hws : ws.map Record.ofJson = rs) : c.Effect (stored entries) ws a := by
  have hids : (Records.ofEntries entries).ids = (readable (stored entries)).map (·.id) := by
    rw [ids, ofEntries_eq_map, mocks_map_ofJson]
  have hvs := (ofEntries_eq_map entries).symm
  cases h with
  | save m => exact ⟨rfl, saved_of_put hvs hws⟩
  | saveDraft d drawn =>
    refine ⟨by rw [hids], saved_of_put hvs hws, fun hid => ?_⟩
    obtain ⟨old, hreplaced⟩ | ⟨-, happended⟩ := saved_of_put hvs hws
    · have hfree : (d.toMock drawn (Records.ofEntries entries).ids).id ∉
          (readable (stored entries)).map (·.id) := by
        rw [← hids, Draft.toMock, hid]
        exact MockId.fresh_notMem (hret hid)
      exact absurd (hreplaced.ids.1 ▸ hreplaced.mem) hfree
    · exact happended
  | addAll ds draw => exact ⟨by rw [hids], appended_of_append hvs hws⟩
  | edit hc hold hnew =>
    obtain ⟨_, _, _, _, hid, _⟩ := replace_of_find? hold ‹_›
    exact effect_of_edit hc hnew
      (replaced_of_replace hvs hold ((edits_of_edit? hc hnew).id_eq.trans hid) hws)
  | delete hany =>
    refine ⟨?_, removed_of_remove hvs hws⟩
    rwa [← hids, ← any_hasId_iff]
  | deleteAll => exact map_eq_nil_iff.1 hws

theorem effect_of_writes {s : Store} {new : Members} (h : c.Writes s.entries a new)
    (hin : c.IdsInRange) (ht : c.Tidy Mock.AnyLeaf) (hret : c.Returns s.entries) :
    c.Effect (stored s.entries) (stored (s.set new).entries) a := by
  cases h with
  | read hc a =>
    rw [Store.set_nil]
    cases c with
    | list | get _ | globalEnabled => rfl
    | _ => exact hc.elim
  | seed h =>
    rw [entries_set]
    exact Mocks.stored_seed h
  | setGlobal on => exact stored_set_global s on
  | records h =>
    refine effect_of_changes h hret ?_
    rw [← ofEntries_eq_map]
    exact ofEntries_set_of_changes h hin ht

end Call

namespace Store

/-- What a call makes of the stored list, whatever is stored in it. A call whose mocks and drafts are in
normal form, with ids in range, touches only the mock or mocks that it is about; one that fails touches
nothing. -/
theorem attempt_touches (writable : Bool) (c : Call) (s : Store) (hin : c.IdsInRange)
    (ht : c.Tidy Mock.AnyLeaf) (hret : c.Returns s.entries) :
    match s.attempt writable c.operation with
    | (.error _, t) => t = s
    | (.ok a, t) => c.Effect (Records.stored s.entries) (Records.stored t.entries) a := by
  obtain ⟨e, h⟩ | ⟨a, new, hw, h⟩ := Call.attempt_cases writable c s
  · rw [h]
  · rw [h]
    exact Call.effect_of_writes hw hin ht hret

/-- A store with a mock in an old form, an element that is no mock, and a mock that is switched off. -/
def mixed : Store :=
  { inMemory with
    entries :=
      [(Records.key, .arr
        [.obj [("id", .str "4"), ("url", .str "/a?MT=GET"), ("mockData", .null)],
         .int 7,
         .obj [("id", .int 5), ("urlTemplate", .str "/b?MT=GET"), ("body", .int 1),
           ("enabled", .bool false)]])] }

theorem attempt_touches_mixed :
    ∃ m t, mixed.attempt true (Call.saveDraft plainDraft ⟨4⟩).operation = (.ok m, t) ∧
      m.id = ⟨6⟩ ∧ Records.Appended [m] (Records.stored mixed.entries) (Records.stored t.entries) := by
  have hin : (Call.saveDraft plainDraft ⟨4⟩).IdsInRange := ⟨by simp [plainDraft], by decide⟩
  have ht : (Call.saveDraft plainDraft ⟨4⟩).Tidy Mock.AnyLeaf :=
    ⟨by decide +kernel, .scalar trivial trivial⟩
  have hret : (Call.saveDraft plainDraft ⟨4⟩).Returns mixed.entries :=
    fun _ => ⟨2, by decide +kernel⟩
  have h := attempt_touches true (.saveDraft plainDraft ⟨4⟩) mixed hin ht hret
  have hid : (plainDraft.toMock ⟨4⟩ (Records.ofEntries mixed.entries).ids).id = ⟨6⟩ := by
    decide +kernel
  exact ⟨_, _, rfl, hid, h.2.2 rfl⟩

end Store
end MockRedirect
