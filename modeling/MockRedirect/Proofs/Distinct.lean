import MockRedirect.Proofs.Call
import MockRedirect.Proofs.FreshId
import MockRedirect.Proofs.Normal
/-! The ids of the mocks in a store stay different from one another and in range, whatever calls are made
and whatever ids are drawn. -/
namespace MockRedirect
open Store

/-! ### Ids that are read back -/

/-- A record that keeps its id, or its lack of one, when it is written and read. -/
def Record.KeepsId (r : Record) : Prop :=
  (Record.ofJson r.toJson).mock?.map (·.id) = r.mock?.map (·.id)

theorem Record.keepsId_ofJson (v : Json) : (Record.ofJson v).KeepsId := by
  rw [KeepsId, Record.settled_ofJson v]

theorem Record.keepsId_mock {m : Mock} (h : m.id.InRange) : (Record.mock m).KeepsId :=
  congrArg some (MockId.reduce_of_inRange h)

namespace Records

theorem ids_eq_filterMap (rs : Records) : rs.ids = rs.filterMap fun r => r.mock?.map (·.id) :=
  List.map_filterMap ..

theorem ids_ofEntries_set {rs : Records} (h : ∀ r ∈ rs, r.KeepsId) (s : Store) :
    (ofEntries (s.set rs.toEntries).entries).ids = rs.ids := by
  rw [ofEntries_set, ids_eq_filterMap, ids_eq_filterMap, List.filterMap_map]
  exact List.filterMap_congr h

theorem ids_remove (rs : Records) (id : MockId) : (rs.remove id).ids = rs.ids.filter (· ≠ id) := by
  induction rs with
  | nil => rfl
  | cons r rs ih =>
    cases r with
    | unreadable v => exact ih
    | mock m =>
      by_cases hid : m.id = id
      · simpa [remove, Record.hasId, hid] using ih
      · simpa [remove, Record.hasId, hid] using ih

theorem ids_replace {rs : Records} {id : MockId} {old new : Mock} (hold : rs.find? id = some old)
    (hnew : new.id = id) : (rs.replace id new).ids = rs.ids := by
  obtain ⟨pre, post, rfl, hreplace, hid, -⟩ := replace_of_find? hold new
  rw [hreplace]
  simp [hid, hnew]

/-- Different ids, all of them in range. -/
structure Distinct (rs : Records) : Prop where
  nodup : rs.ids.Nodup
  inRange : ∀ id ∈ rs.ids, id.InRange

end Records

/-! ### Ids of added mocks -/

namespace Mocks

/-- The search for a free id comes to an end for each of some drafts that are added. -/
def SearchesEnd (draw : Nat → MockId) : Nat → List MockId → List Draft → Prop
  | _, _, [] => True
  | i, taken, _ :: ds =>
    (draw i).Ends taken ∧ SearchesEnd draw (i + 1) ((draw i).fresh taken :: taken) ds

variable {draw : Nat → MockId} {i : Nat} {taken : List MockId} {ds : List Draft}

/-- Added mocks get ids that are not taken, each another one. -/
theorem nodup_fromDrafts (h : SearchesEnd draw i taken ds) :
    ((fromDrafts draw i taken ds).map (·.id)).Nodup ∧
      ∀ m ∈ fromDrafts draw i taken ds, m.id ∉ taken := by
  induction ds generalizing i taken with
  | nil => simp [fromDrafts]
  | cons d ds ih =>
    obtain ⟨hends, h⟩ := h
    obtain ⟨hnodup, hfree⟩ := ih h
    rw [fromDrafts, List.map_cons, List.nodup_cons, List.forall_mem_cons]
    refine ⟨⟨fun hmem => ?_, hnodup⟩, MockId.fresh_notMem hends, fun m hm htaken => ?_⟩
    · obtain ⟨m, hm, hid⟩ := List.mem_map.1 hmem
      exact hfree m hm (hid ▸ List.mem_cons_self)
    · exact hfree m hm (List.mem_cons_of_mem _ htaken)

theorem inRange_fromDrafts (h : ∀ i, (draw i).InRange) :
    ∀ m ∈ fromDrafts draw i taken ds, m.id.InRange := by
  induction ds generalizing i taken with
  | nil => simp [fromDrafts]
  | cons d ds ih =>
    rw [fromDrafts, List.forall_mem_cons]
    exact ⟨MockId.inRange_fresh (h i) taken, ih⟩

theorem length_fromDrafts (draw : Nat → MockId) (i : Nat) (taken : List MockId) (ds : List Draft) :
    (fromDrafts draw i taken ds).length = ds.length := by
  induction ds generalizing i taken with
  | nil => rfl
  | cons d ds ih => exact congrArg Nat.succ (ih _ _)

/-- An id that a draft carries does not count. -/
theorem fromDrafts_map_id (draw : Nat → MockId) (i : Nat) (taken : List MockId) (ds : List Draft)
    (id : Draft → Option MockId) :
    fromDrafts draw i taken (ds.map fun d => { d with id := id d }) = fromDrafts draw i taken ds := by
  induction ds generalizing i taken with
  | nil => rfl
  | cons d ds ih => exact congrArg (List.cons _) (ih _ _)

end Mocks

/-! ### Calls -/

namespace Call

/-- The ids that a call brings in are in range. -/
def IdsInRange : Call → Prop
  | save m => m.id.InRange
  | saveDraft d drawn => (∀ id ∈ d.id, id.InRange) ∧ drawn.InRange
  | addAll _ draw => ∀ i, (draw i).InRange
  | _ => True

/-- The call returns: each search for a free id comes to an end. It does unless all ids are taken. -/
def Returns (entries : Members) : Call → Prop
  | saveDraft d drawn => d.id = none → drawn.Ends (Records.ofEntries entries).ids
  | addAll ds draw => Mocks.SearchesEnd draw 0 (Records.ofEntries entries).ids ds
  | _ => True

variable {c : Call} {entries : Members} {rs : Records} {a : c.Answer}

theorem inRange_toMock {d : Draft} {drawn : MockId} (h : (saveDraft d drawn).IdsInRange)
    (taken : List MockId) : (d.toMock drawn taken).id.InRange := by
  unfold Draft.toMock
  cases hid : d.id with
  | none => exact MockId.inRange_fresh h.2 taken
  | some id => exact h.1 id hid

/-- A change drops ids, or adds some that are in range and were not in use. -/
theorem ids_of_changes (h : c.Changes (.ofEntries entries) a rs) (hin : c.IdsInRange)
    (hret : c.Returns entries) :
    rs.ids.Sublist (Records.ofEntries entries).ids ∨
      ∃ added, rs.ids = (Records.ofEntries entries).ids ++ added ∧ added.Nodup ∧
        ∀ id ∈ added, id ∉ (Records.ofEntries entries).ids ∧ id.InRange := by
  have hput {m : Mock} (hm : m.id.InRange) :
      ((Records.ofEntries entries).put m).ids.Sublist (Records.ofEntries entries).ids ∨
      ∃ added, ((Records.ofEntries entries).put m).ids = (Records.ofEntries entries).ids ++ added ∧
        added.Nodup ∧ ∀ id ∈ added, id ∉ (Records.ofEntries entries).ids ∧ id.InRange := by
    obtain ⟨old, hold, heq⟩ | ⟨hnew, heq⟩ := Records.put_cases (.ofEntries entries) m
    · rw [heq, Records.ids_replace hold rfl]
      exact .inl (.refl _)
    · rw [heq]
      exact .inr ⟨[m.id], by simp, by simp, by simp [hnew, hm]⟩
  cases h with
  | save m => exact hput hin
  | saveDraft d drawn => exact hput (inRange_toMock hin _)
  | addAll ds draw =>
    obtain ⟨hnodup, hfree⟩ := Mocks.nodup_fromDrafts hret
    refine .inr ⟨_, ?_, hnodup, fun id hid => ?_⟩
    · simp [Records.ids, Records.mocks, Record.mock?, List.filterMap_map, Function.comp_def]
    · obtain ⟨m, hm, rfl⟩ := List.mem_map.1 hid
      exact ⟨hfree m hm, Mocks.inRange_fromDrafts hin m hm⟩
  | edit hc hold hnew =>
    obtain ⟨_, _, _, _, hid, _⟩ := Records.replace_of_find? hold ‹_›
    rw [Records.ids_replace hold ((edits_of_edit? hc hnew).id_eq.trans hid)]
    exact .inl (.refl _)
  | delete _ =>
    rw [Records.ids_remove]
    exact .inl List.filter_sublist
  | deleteAll => exact .inl (List.nil_sublist _)

theorem distinct_of_changes (h : c.Changes (.ofEntries entries) a rs) (hin : c.IdsInRange)
    (hret : c.Returns entries) (hd : (Records.ofEntries entries).Distinct) : rs.Distinct := by
  obtain hsub | ⟨added, heq, hnodup, hadded⟩ := ids_of_changes h hin hret
  · exact ⟨hd.nodup.sublist hsub, fun id hid => hd.inRange id (hsub.subset hid)⟩
  · constructor
    · rw [heq, List.nodup_append]
      exact ⟨hd.nodup, hnodup, fun a ha b hb hab => (hadded b hb).1 (hab ▸ ha)⟩
    · rw [heq]
      intro id hid
      exact (List.mem_append.1 hid).elim (hd.inRange id) fun hid => (hadded id hid).2

/-- Whatever is written by a change keeps its id. -/
theorem keepsId_of_changes (h : c.Changes (.ofEntries entries) a rs) (hd : rs.Distinct) :
    ∀ r ∈ rs, r.KeepsId := by
  intro r hr
  cases r with
  | mock m => exact Record.keepsId_mock (hd.inRange m.id (Records.id_mem_ids hr))
  | unreadable v =>
    obtain hold | ⟨m, hm, -⟩ := mem_of_changes h hr
    · obtain ⟨w, hw⟩ := Records.exists_ofJson_of_mem hold
      rw [hw]
      exact Record.keepsId_ofJson w
    · contradiction

/-- One call keeps the ids different and in range. -/
theorem distinct_after {s : Store} (writable : Bool) (hin : c.IdsInRange) (hret : c.Returns s.entries)
    (hd : (Records.ofEntries s.entries).Distinct) :
    (Records.ofEntries (s.after writable c).entries).Distinct := by
  rw [after]
  obtain ⟨e, h⟩ | ⟨a, new, hw, h⟩ := attempt_cases writable c s
  · rwa [h]
  · rw [h]
    obtain hsame | ⟨rs, hrs, rfl⟩ := stored_of_writes hw
    · rwa [Records.ofEntries_eq_map, hsame, ← Records.ofEntries_eq_map]
    · have hdrs := distinct_of_changes hrs hin hret hd
      have hids := Records.ids_ofEntries_set (keepsId_of_changes hrs hdrs) s
      exact ⟨hids ▸ hdrs.nodup, hids ▸ hdrs.inRange⟩

end Call

namespace Store

/-- Whatever calls have been made on a store that was empty once, as long as they bring in ids in range:
the mocks that are listed have different ids, all of them in range. A draft without an id gets one that
is not in use, and so does each of some drafts that are added, whatever id it carries. -/
theorem distinct_of_reaches {s t : Store} (hs : s.entries = [])
    (h : s.Reaches (fun c entries => c.IdsInRange ∧ c.Returns entries) t) :
    ∃ ms, Mocks.list t.entries = .ok (ms, []) ∧
      (ms.map (·.id)).Nodup ∧ (∀ m ∈ ms, m.id.InRange) ∧
      (∀ (d : Draft) (drawn : MockId), d.id = none → drawn.Ends (ms.map (·.id)) →
        ∃ m t', t.perform (Mocks.saveDraft d drawn) = (.ok m, t') ∧ m.id ∉ ms.map (·.id)) ∧
      ∀ (ds : List Draft) (draw : Nat → MockId), Mocks.SearchesEnd draw 0 (ms.map (·.id)) ds →
        ∃ added t', t.perform (Mocks.addAll ds draw) = (.ok added, t') ∧
          added.length = ds.length ∧ (added.map (·.id)).Nodup ∧
          (∀ m ∈ added, m.id ∉ ms.map (·.id)) ∧
          ∀ id : Draft → Option MockId, t.perform
            (Mocks.addAll (ds.map fun d => { d with id := id d }) draw) = (.ok added, t') := by
  have hd : (Records.ofEntries t.entries).Distinct := by
    refine h.invariant ⟨?_, ?_⟩ fun t writable c hd hc => Call.distinct_after writable hc.1 hc.2 hd
    · rw [hs]
      exact List.nodup_nil
    · rw [hs]
      simp [Records.ofEntries]
  refine ⟨(Records.ofEntries t.entries).mocks, rfl, hd.nodup, ?_, ?_, ?_⟩
  · exact fun m hm => hd.inRange m.id (List.mem_map_of_mem hm)
  · intro d drawn hid hends
    refine ⟨_, _, rfl, ?_⟩
    rw [Draft.toMock, hid]
    exact MockId.fresh_notMem hends
  · intro ds draw hends
    obtain ⟨hnodup, hfree⟩ := Mocks.nodup_fromDrafts hends
    refine ⟨_, _, rfl, Mocks.length_fromDrafts _ _ _ _, hnodup, hfree, fun id => ?_⟩
    simp only [Store.perform, Mocks.addAll, Mocks.fromDrafts_map_id]

def plainDraft : Draft := ⟨none, "/a", "/a?MT=GET", .get, .null, .null⟩

/-- A store with two mocks for which the same id was drawn, the highest one. -/
def twiceDrawn : Store :=
  let c : Call := .saveDraft plainDraft ⟨MockId.highest⟩
  ((inMemory.after true .seed).after true c).after false c

theorem reaches_twiceDrawn :
    inMemory.Reaches (fun c entries => c.IdsInRange ∧ c.Returns entries) twiceDrawn := by
  have hin : (Call.saveDraft plainDraft ⟨MockId.highest⟩).IdsInRange := ⟨by simp [plainDraft], by decide⟩
  refine .step (.step (.step .refl true ?seed) true ?first) false ?second
  case seed => exact ⟨trivial, trivial⟩
  case first => exact ⟨hin, fun _ => ⟨0, by decide +kernel⟩⟩
  case second => exact ⟨hin, fun _ => ⟨1, by decide +kernel⟩⟩

theorem distinct_of_reaches_twiceDrawn :
    inMemory.entries = [] ∧ ∃ ms, Mocks.list twiceDrawn.entries = .ok (ms, []) ∧
      ms.map (·.id) = [⟨MockId.highest⟩, ⟨1⟩] ∧ (ms.map (·.id)).Nodup ∧ (∀ m ∈ ms, m.id.InRange) ∧
      (∃ m t', twiceDrawn.perform (Mocks.saveDraft plainDraft ⟨1⟩) = (.ok m, t') ∧
        m.id ∉ ms.map (·.id)) ∧
      ∃ added t', twiceDrawn.perform (Mocks.addAll [plainDraft, plainDraft] fun _ => ⟨1⟩) =
        (.ok added, t') ∧ (added.map (·.id)).Nodup ∧ ∀ m ∈ added, m.id ∉ ms.map (·.id) := by
  obtain ⟨ms, hms, hnodup, hin, hsave, hadd⟩ := distinct_of_reaches rfl reaches_twiceDrawn
  have hids : (Records.ofEntries twiceDrawn.entries).ids = [⟨MockId.highest⟩, ⟨1⟩] := by decide +kernel
  cases hms
  have hends : Mocks.SearchesEnd (fun _ => ⟨1⟩) 0 (Records.ofEntries twiceDrawn.entries).ids
      [plainDraft, plainDraft] := by
    rw [hids]
    exact ⟨⟨1, by decide⟩, ⟨2, by decide⟩, trivial⟩
  obtain ⟨added, t', hok, -, hadded, hfree, -⟩ := hadd _ _ hends
  exact ⟨rfl, _, rfl, hids, hnodup, hin, hsave plainDraft ⟨1⟩ rfl hends.1, added, t', hok, hadded, hfree⟩

end Store
end MockRedirect
