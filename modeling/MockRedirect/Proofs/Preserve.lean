import MockRedirect.Proofs.Distinct
/-! Calls that bring in nothing but mocks in normal form keep every mock in normal form. -/
namespace MockRedirect
open Store

namespace Call

/-- The verbs and the bodies that a call brings in are in normal form, and every number, text and flag in
the bodies satisfies `leaf`. -/
def Tidy (leaf : Json → Prop) : Call → Prop
  | save m => m.verb.IsNormal ∧ m.body.Tidy leaf
  | saveDraft d _ => d.verb.IsNormal ∧ d.body.Tidy leaf
  | addAll ds _ => ∀ d ∈ ds, d.verb.IsNormal ∧ d.body.Tidy leaf
  | updateVerb _ verb => verb.IsNormal
  | updateField _ _ raw => ∀ path current, leaf (Json.coerce path raw current)
  | _ => True

variable {leaf : Json → Prop} {c : Call} {rs rs' : Records} {a : c.Answer} {m old new : Mock}

theorem normal_of_edits (h : Edits old c new) (ht : c.Tidy leaf) (hz : leaf (.int 0))
    (hold : old.Normal leaf) : new.Normal leaf := by
  have hid : new.id.InRange := h.id_eq ▸ hold.id
  have hdraft : (Draft.ofMock old).Tidy leaf := Draft.tidy_ofMock hold.body hz
  cases h with
  | toggle id => exact ⟨hid, hold.verb, hold.body⟩
  | updateVerb id verb => exact ⟨hid, ht, hold.body⟩
  | updateUrl h =>
    obtain ⟨_, -, h⟩ := bind_eq_ok.1 h
    obtain ⟨e, he, h⟩ := bind_eq_ok.1 h
    cases h
    exact ⟨hid, Endpoint.isNormal_of_compile hold.verb he, hold.body⟩
  | updateField h => exact ⟨hid, hold.verb, (hdraft.setField h ht).1⟩
  | pushItem h => exact ⟨hid, hold.verb, (hdraft.pushItem h).1⟩
  | removeItem h => exact ⟨hid, hold.verb, (hdraft.removeItem h).1⟩

/-- The mock that a draft becomes beside others is made of one of them. -/
theorem exists_draft_of_mem_fromDrafts {draw : Nat → MockId} {i : Nat} {taken : List MockId}
    {ds : List Draft} (h : m ∈ Mocks.fromDrafts draw i taken ds) :
    ∃ d ∈ ds, m.verb = d.verb ∧ m.body = d.body := by
  induction ds generalizing i taken with
  | nil => contradiction
  | cons d ds ih =>
    obtain rfl | h := List.mem_cons.1 h
    · exact ⟨d, List.mem_cons_self, rfl, rfl⟩
    · obtain ⟨d', hd', hm⟩ := ih h
      exact ⟨d', List.mem_cons_of_mem _ hd', hm⟩

theorem normal_of_brings (h : c.Brings rs m) (hin : c.IdsInRange) (ht : c.Tidy leaf)
    (hz : leaf (.int 0)) (hold : ∀ old, .mock old ∈ rs → old.Normal leaf) : m.Normal leaf := by
  cases h with
  | save m => exact ⟨hin, ht.1, ht.2⟩
  | saveDraft d drawn => exact ⟨inRange_toMock hin _, ht.1, ht.2⟩
  | addAll hm =>
    obtain ⟨d, hd, hverb, hbody⟩ := exists_draft_of_mem_fromDrafts hm
    refine ⟨Mocks.inRange_fromDrafts hin m hm, ?_, ?_⟩
    · rw [hverb]
      exact (ht d hd).1
    · rw [hbody]
      exact (ht d hd).2
  | edit hmem h => exact normal_of_edits h ht hz (hold _ hmem)

/-- A change keeps all mocks in normal form. -/
theorem normal_of_changes (h : c.Changes rs a rs') (hin : c.IdsInRange) (ht : c.Tidy leaf)
    (hz : leaf (.int 0)) (hold : ∀ m, .mock m ∈ rs → m.Normal leaf) :
    ∀ m, .mock m ∈ rs' → m.Normal leaf := by
  intro m hm
  obtain hmem | ⟨m', heq, hbrings⟩ := mem_of_changes h hm
  · exact hold m hmem
  · cases heq
    exact normal_of_brings hbrings hin ht hz hold

/-- Whatever is written by a change is read back as it was. -/
theorem settled_of_changes {entries : Members} (h : c.Changes (.ofEntries entries) a rs')
    (hin : c.IdsInRange) (ht : c.Tidy Mock.AnyLeaf) : ∀ r ∈ rs', r.Settled := by
  intro r hr
  have hmem : ∀ r ∈ Records.ofEntries entries, ∃ v, r = .ofJson v := fun _ =>
    Records.exists_ofJson_of_mem
  obtain hold | ⟨m, rfl, hbrings⟩ := mem_of_changes h hr
  · obtain ⟨v, rfl⟩ := hmem r hold
    exact Record.settled_ofJson v
  · refine Record.settled_mock (normal_of_brings hbrings hin ht trivial fun old hold => ?_)
    obtain ⟨v, hv⟩ := hmem _ hold
    exact Mock.normal_of_ofJson? (Json.every_true v) (Record.ofJson_eq_mock hv.symm)

/-- Whatever is written by a change is what is found afterwards. -/
theorem ofEntries_set_of_changes {s : Store} (h : c.Changes (.ofEntries s.entries) a rs')
    (hin : c.IdsInRange) (ht : c.Tidy Mock.AnyLeaf) :
    Records.ofEntries (s.set rs'.toEntries).entries = rs' := by
  rw [Records.ofEntries_set]
  exact (List.map_congr_left fun r hr => settled_of_changes h hin ht r hr).trans (List.map_id' rs')

end Call
end MockRedirect
