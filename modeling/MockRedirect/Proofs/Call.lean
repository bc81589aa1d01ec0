import MockRedirect.Proofs.Address
import MockRedirect.Proofs.Record
import MockRedirect.Proofs.Tree
import MockRedirect.Store.Call
/-! What a call can do: it reads, or it writes the switch, or it writes the list of mocks back, changed
in one of a few ways. Everything else about calls follows from these cases. -/
namespace MockRedirect
open Store

/-! ### Seeding -/

namespace Mocks

variable {entries new : Members}

theorem nodup_keys_seed (h : seed entries = .ok ((), new)) : (Members.keys new).Nodup := by
  have hsub : (Members.keys new).Sublist [Records.key, globalKey] := by
    cases h
    split <;> split <;> decide
  exact hsub.nodup (by decide)

/-- Seeding writes an empty list where there is no list, and an open switch where there is none. -/
theorem mem_seed (h : seed entries = .ok ((), new)) {m : String × Json} (hm : m ∈ new) :
    (m = (Records.key, .arr []) ∧ ∀ vs, Members.get? Records.key entries ≠ some (.arr vs)) ∨
      (m = (globalKey, .bool true) ∧ Members.get? globalKey entries = none) := by
  cases h
  obtain hm | hm := List.mem_append.1 hm
  · split at hm
    · contradiction
    · next hlist =>
      obtain rfl := List.mem_singleton.1 hm
      exact .inl ⟨rfl, fun vs heq => hlist (by rw [heq]; rfl)⟩
  · split at hm
    · contradiction
    · next hswitch =>
      obtain rfl := List.mem_singleton.1 hm
      exact .inr ⟨rfl, by simpa using hswitch⟩

theorem mem_keys_seed_iff (h : seed entries = .ok ((), new)) (key : String) :
    key ∈ Members.keys new ↔
      Members.get? key (Members.putAll entries new) ≠ Members.get? key entries := by
  constructor
  · intro hkey
    obtain ⟨m, hm, rfl⟩ := List.mem_map.1 hkey
    rw [Members.get?_putAll_of_mem (nodup_keys_seed h) hm]
    obtain ⟨rfl, hlist⟩ | ⟨rfl, hswitch⟩ := mem_seed h hm
    · exact (hlist []).symm
    · rw [hswitch]
      exact Option.some_ne_none _
  · refine fun hne => Decidable.byContradiction fun hkey => ?_
    exact hne (Members.get?_putAll_of_notMem hkey entries)

/-- Seeding leaves the list as it is; an empty list may take the place of what is no list. -/
theorem stored_seed (h : seed entries = .ok ((), new)) :
    Records.stored (Members.putAll entries new) = Records.stored entries := by
  by_cases hkey : Records.key ∈ Members.keys new
  · obtain ⟨m, hm, hkey⟩ := List.mem_map.1 hkey
    obtain ⟨rfl, hlist⟩ | ⟨rfl, -⟩ := mem_seed h hm
    · have hnone : Records.stored entries = [] := by
        unfold Records.stored
        split
        · next vs heq => exact absurd heq (hlist vs)
        · rfl
      rw [hnone, Records.stored, Members.get?_putAll_of_mem (nodup_keys_seed h) hm]
    · contradiction
  · rw [Records.stored, Members.get?_putAll_of_notMem hkey]
    rfl

end Mocks

/-! ### Edits -/

/-- A change of one mock in place, and what is answered about the mock before and after it. -/
structure MockEdit (α : Type) where
  id : MockId
  apply : Mock → Except InputError Mock
  reply : Mock → Mock → α

namespace Call

/-- A mock with its body edited through a draft. -/
def editBody (edit : Draft → Except InputError Draft) (m : Mock) : Except InputError Mock :=
  (edit (Draft.ofMock m)).map fun d => { m with body := d.body }

/-- The edit that a call makes, if it is one of those that change one mock in place. -/
def edit? : (c : Call) → Option (MockEdit c.Answer)
  | toggle id => some ⟨id, fun m => .ok { m with enabled := !m.enabled }, fun _ m => m.enabled⟩
  | updateVerb id verb => some ⟨id, fun m => .ok (Mocks.withVerb verb m), fun _ m => m⟩
  | updateUrl id url =>
    some ⟨id, Mocks.withUrl url, fun old m => decide (m.urlTemplate ≠ old.urlTemplate)⟩
  | updateField id path raw => some ⟨id, editBody (·.setField path raw), fun _ m => m⟩
  | pushItem id path => some ⟨id, editBody (·.pushItem path), fun _ m => m⟩
  | removeItem id path i => some ⟨id, editBody (·.removeItem path i), fun _ m => m⟩
  | _ => none

/-- The calls that only look. -/
def IsRead : Call → Prop
  | list | get _ | globalEnabled => True
  | _ => False

/-- How a call that writes the list changes the records it finds, with its answer. -/
inductive Changes (rs : Records) : (c : Call) → c.Answer → Records → Prop
  | save (m : Mock) : Changes rs (.save m) m (rs.put m)
  | saveDraft (d : Draft) (drawn : MockId) :
    Changes rs (.saveDraft d drawn) (d.toMock drawn rs.ids) (rs.put (d.toMock drawn rs.ids))
  | addAll (ds : List Draft) (draw : Nat → MockId) :
    Changes rs (.addAll ds draw) (Mocks.fromDrafts draw 0 rs.ids ds)
      (rs ++ (Mocks.fromDrafts draw 0 rs.ids ds).map .mock)
  | edit {c : Call} {e : MockEdit c.Answer} {old new : Mock} (hc : c.edit? = some e)
    (hold : rs.find? e.id = some old) (hnew : e.apply old = .ok new) :
    Changes rs c (e.reply old new) (rs.replace e.id new)
  | delete {id : MockId} (h : rs.any (·.hasId id) = true) : Changes rs (.delete id) () (rs.remove id)
  | deleteAll : Changes rs .deleteAll () []

/-- What a call that succeeds writes, with its answer. -/
inductive Writes (entries : Members) : (c : Call) → c.Answer → Members → Prop
  | read {c : Call} (hc : c.IsRead) (a : c.Answer) : Writes entries c a []
  | seed {new : Members} (h : Mocks.seed entries = .ok ((), new)) : Writes entries .seed () new
  | setGlobal (on : Bool) : Writes entries (.setGlobal on) () [(globalKey, .bool on)]
  | records {c : Call} {a : c.Answer} {rs : Records} (h : c.Changes (.ofEntries entries) a rs) :
    Writes entries c a rs.toEntries

theorem modify_eq_ok {id : MockId} {edit : Mock → Except InputError Mock} {entries new : Members}
    {m : Mock} : Mocks.modify id edit entries = .ok (m, new) ↔
      ∃ old, (Records.ofEntries entries).find? id = some old ∧ edit old = .ok m ∧
        ((Records.ofEntries entries).replace id m).toEntries = new := by
  rw [Mocks.modify]
  cases (Records.ofEntries entries).find? id with
  | none => simp
  | some old =>
    cases hedit : edit old with
    | error e =>
      have herror : (Except.error e : Except InputError Mock).mapError StoreError.input =
        .error (.input e) := rfl
      simp [hedit, herror, bind, Except.bind]
    | ok m' =>
      have hok : (Except.ok m' : Except InputError Mock).mapError StoreError.input = .ok m' := rfl
      simp only [hedit, hok, bind, Except.bind, Except.ok.injEq, Prod.mk.injEq,
        Option.some.injEq, exists_eq_left']
      exact and_congr_right fun h => by rw [h]

variable {entries new : Members}

theorem get_eq_ok {id : MockId} {m : Mock} : Mocks.get id entries = .ok (m, new) ↔
    (Records.ofEntries entries).find? id = some m ∧ new = [] := by
  rw [Mocks.get]
  cases (Records.ofEntries entries).find? id <;> simp [eq_comm]

theorem withUrl_eq_ok {url : String} {m new : Mock} : Mocks.withUrl url m = .ok new ↔
    ∃ e, Endpoint.validate url = .ok () ∧ Endpoint.compile url m.verb = .ok e ∧
      { m with typedUrl := Text.trimmed url, urlTemplate := e.template, verb := e.verb } = new := by
  rw [Mocks.withUrl, bind_eq_ok]
  constructor
  · rintro ⟨⟨⟩, hvalid, h⟩
    obtain ⟨e, he, h⟩ := bind_eq_ok.1 h
    exact ⟨e, hvalid, he, Except.ok.inj h⟩
  · rintro ⟨e, hvalid, he, rfl⟩
    exact ⟨(), hvalid, bind_eq_ok.2 ⟨e, he, rfl⟩⟩

theorem updateUrl_eq_ok {id : MockId} {url : String} {changed : Bool} :
    Mocks.updateUrl id url entries = .ok (changed, new) ↔
      ∃ old m, (Records.ofEntries entries).find? id = some old ∧ Mocks.withUrl url old = .ok m ∧
        decide (m.urlTemplate ≠ old.urlTemplate) = changed ∧
        ((Records.ofEntries entries).replace id m).toEntries = new := by
  rw [Mocks.updateUrl, bind_eq_ok]
  constructor
  · rintro ⟨⟨old, _⟩, hget, h⟩
    obtain ⟨⟨m, _⟩, hmodify, h⟩ := bind_eq_ok.1 h
    obtain ⟨hold, -⟩ := get_eq_ok.1 hget
    obtain ⟨old', hold', hm, rfl⟩ := modify_eq_ok.1 hmodify
    cases hold.symm.trans hold'
    cases h
    exact ⟨old, m, hold, hm, rfl, rfl⟩
  · rintro ⟨old, m, hold, hm, rfl, rfl⟩
    exact ⟨(old, []), get_eq_ok.2 ⟨hold, rfl⟩, bind_eq_ok.2 ⟨_, modify_eq_ok.2 ⟨old, hold, hm, rfl⟩, rfl⟩⟩

theorem writes_of_modify {c : Call} {e : MockEdit c.Answer} (hc : c.edit? = some e) {m : Mock}
    (h : Mocks.modify e.id e.apply entries = .ok (m, new)) :
    ∃ old, (Records.ofEntries entries).find? e.id = some old ∧
      c.Writes entries (e.reply old m) new := by
  obtain ⟨old, hold, hnew, rfl⟩ := modify_eq_ok.1 h
  exact ⟨old, hold, .records (.edit hc hold hnew)⟩

/-- Nothing else can come of a call that succeeds. -/
theorem writes_of_operation {c : Call} {a : c.Answer} (h : c.operation entries = .ok (a, new)) :
    c.Writes entries a new := by
  cases c with
  | seed => exact .seed h
  | list =>
    cases h
    exact .read (c := .list) trivial _
  | get id =>
    obtain ⟨-, rfl⟩ := get_eq_ok.1 h
    exact .read (c := .get id) trivial _
  | globalEnabled =>
    cases h
    exact .read (c := .globalEnabled) trivial _
  | setGlobal on =>
    cases h
    exact .setGlobal on
  | save m =>
    cases h
    exact .records (.save m)
  | saveDraft d drawn =>
    cases h
    exact .records (.saveDraft d drawn)
  | addAll ds draw =>
    cases h
    exact .records (.addAll ds draw)
  | delete id =>
    simp only [operation, Mocks.delete] at h
    split at h
    · next hany =>
      cases h
      exact .records (.delete hany)
    · contradiction
  | deleteAll =>
    cases h
    exact .records .deleteAll
  | toggle id =>
    obtain ⟨⟨m, _⟩, hm, h⟩ := bind_eq_ok.1 h
    cases h
    obtain ⟨_, -, hw⟩ := writes_of_modify (c := .toggle id) rfl hm
    exact hw
  | updateUrl id url =>
    obtain ⟨old, m, hold, hm, rfl, rfl⟩ := updateUrl_eq_ok.1 h
    exact .records (.edit (c := .updateUrl id url) rfl hold hm)
  | updateVerb id verb =>
    obtain ⟨_, -, hw⟩ := writes_of_modify (c := .updateVerb id verb) rfl h
    exact hw
  | updateField id path raw =>
    obtain ⟨_, -, hw⟩ := writes_of_modify (c := .updateField id path raw) rfl h
    exact hw
  | pushItem id path =>
    obtain ⟨_, -, hw⟩ := writes_of_modify (c := .pushItem id path) rfl h
    exact hw
  | removeItem id path i =>
    obtain ⟨_, -, hw⟩ := writes_of_modify (c := .removeItem id path i) rfl h
    exact hw

/-! ### What edits make of a mock -/

/-- What an edit makes of a mock. -/
inductive Edits (old : Mock) : Call → Mock → Prop
  | toggle (id : MockId) : Edits old (.toggle id) { old with enabled := !old.enabled }
  | updateVerb (id : MockId) (verb : Verb) :
    Edits old (.updateVerb id verb) (Mocks.withVerb verb old)
  | updateUrl {id : MockId} {url : String} {new : Mock} (h : Mocks.withUrl url old = .ok new) :
    Edits old (.updateUrl id url) new
  | updateField {id : MockId} {path raw : String} {d : Draft}
    (h : (Draft.ofMock old).setField path raw = .ok d) :
    Edits old (.updateField id path raw) { old with body := d.body }
  | pushItem {id : MockId} {path : String} {d : Draft} (h : (Draft.ofMock old).pushItem path = .ok d) :
    Edits old (.pushItem id path) { old with body := d.body }
  | removeItem {id : MockId} {path : String} {i : Nat} {d : Draft}
    (h : (Draft.ofMock old).removeItem path i = .ok d) :
    Edits old (.removeItem id path i) { old with body := d.body }

theorem editBody_eq_ok {edit : Draft → Except InputError Draft} {old new : Mock} :
    editBody edit old = .ok new ↔ ∃ d, edit (Draft.ofMock old) = .ok d ∧ { old with body := d.body } = new := by
  unfold editBody
  cases edit (Draft.ofMock old) <;> simp [Except.map]

theorem edits_of_edit? {c : Call} {e : MockEdit c.Answer} {old new : Mock} (hc : c.edit? = some e)
    (h : e.apply old = .ok new) : Edits old c new := by
  cases c with
  | toggle id =>
    cases hc
    cases h
    exact .toggle id
  | updateVerb id verb =>
    cases hc
    cases h
    exact .updateVerb id verb
  | updateUrl id url =>
    cases hc
    exact .updateUrl h
  | updateField id path raw =>
    cases hc
    dsimp only at h
    obtain ⟨d, hd, rfl⟩ := editBody_eq_ok.1 h
    exact .updateField hd
  | pushItem id path =>
    cases hc
    dsimp only at h
    obtain ⟨d, hd, rfl⟩ := editBody_eq_ok.1 h
    exact .pushItem hd
  | removeItem id path i =>
    cases hc
    dsimp only at h
    obtain ⟨d, hd, rfl⟩ := editBody_eq_ok.1 h
    exact .removeItem hd
  | _ => contradiction

/-- An edit leaves a mock its id. -/
theorem Edits.id_eq {old new : Mock} {c : Call} (h : Edits old c new) : new.id = old.id := by
  cases h with
  | updateUrl h =>
    obtain ⟨_, -, h⟩ := bind_eq_ok.1 h
    obtain ⟨_, -, h⟩ := bind_eq_ok.1 h
    cases h
    rfl
  | _ => rfl

/-! ### What changes bring -/

/-- The mocks that a change of some records puts among them. -/
inductive Brings (rs : Records) : Call → Mock → Prop
  | save (m : Mock) : Brings rs (.save m) m
  | saveDraft (d : Draft) (drawn : MockId) : Brings rs (.saveDraft d drawn) (d.toMock drawn rs.ids)
  | addAll {ds : List Draft} {draw : Nat → MockId} {m : Mock}
    (h : m ∈ Mocks.fromDrafts draw 0 rs.ids ds) : Brings rs (.addAll ds draw) m
  | edit {c : Call} {old new : Mock} (hold : .mock old ∈ rs) (h : Edits old c new) : Brings rs c new

/-- All other records were there before. -/
theorem mem_of_changes {c : Call} {a : c.Answer} {rs rs' : Records} (h : c.Changes rs a rs')
    {r : Record} (hr : r ∈ rs') : r ∈ rs ∨ ∃ m, r = .mock m ∧ c.Brings rs m := by
  cases h with
  | save m => exact (Records.mem_put hr).imp_right fun h => ⟨m, h, .save m⟩
  | saveDraft d drawn => exact (Records.mem_put hr).imp_right fun h => ⟨_, h, .saveDraft d drawn⟩
  | addAll ds draw =>
    refine (List.mem_append.1 hr).imp_right fun h => ?_
    obtain ⟨m, hm, rfl⟩ := List.mem_map.1 h
    exact ⟨m, rfl, .addAll hm⟩
  | edit hc hold hnew =>
    refine (Records.mem_replace hr).imp_right fun h => ⟨_, h, .edit ?_ (edits_of_edit? hc hnew)⟩
    obtain ⟨pre, post, rfl, -⟩ := Records.replace_of_find? hold ‹_›
    simp
  | delete _ => exact .inl (List.mem_filter.1 hr).1
  | deleteAll => contradiction

/-! ### Outcomes -/

/-- What can come of a call: it fails, and nothing has changed; or it succeeds with its writes. -/
theorem attempt_cases (writable : Bool) (c : Call) (s : Store) :
    (∃ e, s.attempt writable c.operation = (.error e, s)) ∨
      ∃ a new, c.Writes s.entries a new ∧ s.attempt writable c.operation = (.ok a, s.set new) := by
  unfold attempt
  cases h : c.operation s.entries with
  | error e => exact .inl ⟨e, rfl⟩
  | ok r =>
    obtain ⟨a, new⟩ := r
    dsimp only
    split
    · exact .inr ⟨a, new, writes_of_operation h, rfl⟩
    · exact .inl ⟨.unavailable, rfl⟩

/-- The switch is kept beside the list. -/
theorem stored_set_global (s : Store) (on : Bool) :
    Records.stored (s.set [(globalKey, .bool on)]).entries = Records.stored s.entries := by
  have hkey : Records.key ∉ [globalKey] := by decide
  rw [entries_set, Records.stored, Members.get?_putAll_of_notMem hkey]
  rfl

/-- A call changes the list in one of the few ways, or leaves it as it is. -/
theorem stored_of_writes {c : Call} {a : c.Answer} {s : Store} {new : Members}
    (h : c.Writes s.entries a new) :
    Records.stored (s.set new).entries = Records.stored s.entries ∨
      ∃ rs, c.Changes (.ofEntries s.entries) a rs ∧ new = rs.toEntries := by
  cases h with
  | read hc a => exact .inl (by rw [set_nil])
  | seed h => exact .inl (by rw [entries_set, Mocks.stored_seed h])
  | setGlobal on => exact .inl (stored_set_global s on)
  | records h => exact .inr ⟨_, h, rfl⟩

end Call
end MockRedirect
