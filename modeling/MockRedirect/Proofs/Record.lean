import MockRedirect.Store.Mocks
/-! What is read back of the mocks that are saved. -/
namespace MockRedirect

/-- A mock as it is read back: its id is brought into range, its verb is trimmed and in upper case, and
of members with one name in its body the last is left. -/
def Mock.readBack (m : Mock) : Mock :=
  ⟨.reduce m.id.value.natAbs, m.typedUrl, m.urlTemplate, .of m.verb.text.toList, m.body.merged,
    m.enabled⟩

theorem Record.ofJson_toJson (m : Mock) : ofJson m.toJson = .mock m.readBack := rfl

namespace Records

theorem mock_mem_replace {rs : Records} {id : MockId} (h : rs.any (·.hasId id) = true) (m : Mock) :
    .mock m ∈ rs.replace id m := by
  induction rs with
  | nil => simp at h
  | cons r rs ih =>
    unfold replace
    split
    · exact List.mem_cons_self
    · next hr =>
      rw [List.any_cons, Bool.or_eq_true] at h
      exact List.mem_cons_of_mem _ (ih (h.resolve_left hr))

theorem mock_mem_put (rs : Records) (m : Mock) : .mock m ∈ rs.put m := by
  unfold put
  split
  · next h => exact mock_mem_replace h m
  · simp

/-- The stored list as it stands; anything but an array counts as an empty list. -/
def stored (entries : Members) : List Json :=
  match Members.get? key entries with
  | some (.arr vs) => vs
  | _ => []

theorem ofEntries_eq_map (entries : Members) : ofEntries entries = (stored entries).map .ofJson := by
  unfold ofEntries stored
  cases Members.get? key entries with
  | none => rfl
  | some v => cases v <;> rfl

theorem exists_ofJson_of_mem {entries : Members} {r : Record} (h : r ∈ ofEntries entries) :
    ∃ v, r = .ofJson v := by
  rw [ofEntries_eq_map] at h
  obtain ⟨v, -, rfl⟩ := List.mem_map.1 h
  exact ⟨v, rfl⟩

theorem stored_set (s : Store) (rs : Records) :
    stored (s.set rs.toEntries).entries = rs.map Record.toJson := by
  have hget : Members.get? key (s.set rs.toEntries).entries = some (.arr (rs.map Record.toJson)) :=
    (Members.get?_put ..).trans (if_pos rfl)
  rw [stored, hget]

theorem ofEntries_set (s : Store) (rs : Records) :
    ofEntries (s.set rs.toEntries).entries = rs.map fun r => .ofJson r.toJson := by
  rw [ofEntries_eq_map, stored_set, List.map_map]
  rfl

/-! ### Places -/

@[simp] theorem ids_nil : ids [] = [] := rfl

@[simp] theorem ids_mock_cons (m : Mock) (rs : Records) : ids (.mock m :: rs) = m.id :: rs.ids := rfl

@[simp] theorem ids_unreadable_cons (v : Json) (rs : Records) : ids (.unreadable v :: rs) = rs.ids := rfl

@[simp] theorem ids_append (rs rs' : Records) : ids (rs ++ rs') = rs.ids ++ rs'.ids := by
  simp [ids, mocks]

theorem id_mem_ids {rs : Records} {m : Mock} (h : .mock m ∈ rs) : m.id ∈ rs.ids :=
  List.mem_map_of_mem (List.mem_filterMap.2 ⟨_, h, rfl⟩)

theorem any_hasId_iff (rs : Records) (id : MockId) : rs.any (·.hasId id) = true ↔ id ∈ rs.ids := by
  induction rs with
  | nil => simp
  | cons r rs ih =>
    rw [List.any_cons, Bool.or_eq_true, ih]
    cases r with
    | mock m => simp [Record.hasId, eq_comm]
    | unreadable v => simp [Record.hasId]

theorem find?_mock_cons (m : Mock) (rs : Records) (id : MockId) :
    find? (.mock m :: rs) id = if m.id = id then some m else rs.find? id := by
  change (m :: rs.mocks).find? (·.id = id) = _
  rw [List.find?_cons]
  by_cases h : m.id = id <;> simp [h, find?]

/-- The first mock of an id has a place, and its replacement takes this place. -/
theorem replace_of_find? {rs : Records} {id : MockId} {old : Mock} (h : rs.find? id = some old)
    (new : Mock) : ∃ pre post, rs = pre ++ .mock old :: post ∧
      rs.replace id new = pre ++ .mock new :: post ∧ old.id = id ∧
      ∀ r ∈ pre, r.hasId id = false := by
  induction rs with
  | nil => contradiction
  | cons r rs ih =>
    by_cases hr : r.hasId id = true
    · cases r with
      | unreadable v => contradiction
      | mock m =>
        obtain rfl : m.id = id := of_decide_eq_true hr
        obtain rfl : m = old := by simpa [find?_mock_cons] using h
        exact ⟨[], rs, rfl, by rw [replace, if_pos hr]; rfl, rfl, by simp⟩
    · have hrs : find? rs id = some old := by
        cases r with
        | unreadable v => exact h
        | mock m =>
          have hne : m.id ≠ id := fun heq => hr (decide_eq_true heq)
          rwa [find?_mock_cons, if_neg hne] at h
      obtain ⟨pre, post, rfl, hreplace, hid, hpre⟩ := ih hrs
      refine ⟨r :: pre, post, rfl, ?_, hid, ?_⟩
      · rw [replace, if_neg hr, hreplace]
        rfl
      · rw [List.forall_mem_cons]
        exact ⟨by simpa using hr, hpre⟩

theorem find?_replace {rs : Records} {id : MockId} {old new : Mock} (h : rs.find? id = some old)
    (hid : new.id = id) : (rs.replace id new).find? id = some new := by
  induction rs with
  | nil => contradiction
  | cons r rs ih =>
    rw [replace]
    by_cases hr : r.hasId id = true
    · rw [if_pos hr, find?_mock_cons, if_pos hid]
    · rw [if_neg hr]
      cases r with
      | unreadable v => exact ih h
      | mock m =>
        have hne : m.id ≠ id := fun heq => hr (decide_eq_true heq)
        rw [find?_mock_cons, if_neg hne] at h ⊢
        exact ih h

theorem exists_find? {rs : Records} {id : MockId} (h : id ∈ rs.ids) : ∃ m, rs.find? id = some m := by
  obtain ⟨m, hm, rfl⟩ := List.mem_map.1 h
  exact Option.isSome_iff_exists.1 (List.find?_isSome.2 ⟨m, hm, by simp⟩)

/-- A mock that is saved takes the place of the first one with its id, or it is added at the end. -/
theorem put_cases (rs : Records) (m : Mock) :
    (∃ old, rs.find? m.id = some old ∧ rs.put m = rs.replace m.id m) ∨
      (m.id ∉ rs.ids ∧ rs.put m = rs ++ [.mock m]) := by
  unfold put
  rw [← any_hasId_iff]
  split
  · next h =>
    obtain ⟨old, hold⟩ := exists_find? ((any_hasId_iff rs m.id).1 h)
    exact .inl ⟨old, hold, rfl⟩
  · next h => exact .inr ⟨h, rfl⟩

theorem mem_replace {rs : Records} {id : MockId} {m : Mock} {r : Record} (h : r ∈ rs.replace id m) :
    r ∈ rs ∨ r = .mock m := by
  induction rs with
  | nil => contradiction
  | cons r' rs ih =>
    rw [replace] at h
    split at h
    · exact (List.mem_cons.1 h).symm.imp_left (List.mem_cons_of_mem _)
    · obtain rfl | h := List.mem_cons.1 h
      · exact .inl List.mem_cons_self
      · exact (ih h).imp_left (List.mem_cons_of_mem _)

theorem mem_put {rs : Records} {m : Mock} {r : Record} (h : r ∈ rs.put m) : r ∈ rs ∨ r = .mock m := by
  unfold put at h
  split at h
  · exact mem_replace h
  · exact (List.mem_append.1 h).imp_right List.mem_singleton.1

theorem readBack_mem_mocks {s : Store} {rs : Records} {m : Mock} (h : .mock m ∈ rs) :
    m.readBack ∈ (ofEntries (s.set rs.toEntries).entries).mocks := by
  rw [ofEntries_set, mocks, List.mem_filterMap]
  exact ⟨_, List.mem_map_of_mem h, congrArg Record.mock? (Record.ofJson_toJson m)⟩

end Records

namespace Mocks

/-- Saving always succeeds, and what was saved is found in the store. -/
theorem perform_saveDraft {s s' : Store} {d : Draft} {drawn : MockId} {r : Except StoreError Mock}
    (h : s.perform (saveDraft d drawn) = (r, s')) :
    ∃ taken, (d.toMock drawn taken).readBack ∈ (Records.ofEntries s'.entries).mocks := by
  cases h
  exact ⟨_, Records.readBack_mem_mocks (Records.mock_mem_put _ _)⟩

/-- Writing the list leaves the switch as it is. -/
theorem isOn_set (s : Store) (rs : Records) : isOn (s.set rs.toEntries).entries = isOn s.entries := by
  have hget : Members.get? globalKey (s.set rs.toEntries).entries = Members.get? globalKey s.entries :=
    (Members.get?_put ..).trans (if_neg (by decide))
  rw [isOn, isOn, hget]

theorem isOn_perform_saveDraft {s s' : Store} {d : Draft} {drawn : MockId}
    {r : Except StoreError Mock} (h : s.perform (saveDraft d drawn) = (r, s')) :
    isOn s'.entries = isOn s.entries := by
  cases h
  exact isOn_set s _

end Mocks
end MockRedirect
