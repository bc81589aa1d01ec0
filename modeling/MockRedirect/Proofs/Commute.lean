import Mathlib.Data.List.Pairwise
import MockRedirect.Proofs.Preserve
import MockRedirect.Proofs.Race
/-! Calls about different mocks do not get in each other's way. What comes of such a call depends on the first
mock of its id alone, and no mock of another id is touched by it, so that two of them leave the same store in
either order, whether they succeed or not. -/
namespace MockRedirect
open Store

/-! ### Records -/

theorem Record.not_hasId_of_ne {r : Record} {a b : MockId} (h : r.hasId a = true) (hne : a ≠ b) :
    ¬r.hasId b = true := by
  cases r with
  | unreadable v => exact Bool.false_ne_true
  | mock m =>
    intro hb
    exact hne ((of_decide_eq_true h).symm.trans (of_decide_eq_true hb))

namespace Records

variable {a b : MockId} {m n : Mock} {rs : Records}

theorem find?_cons_of_not_hasId {r : Record} (h : ¬r.hasId a = true) (rs : Records) :
    find? (r :: rs) a = rs.find? a := by
  cases r with
  | unreadable v => rfl
  | mock m => rw [find?_mock_cons, if_neg fun hm => h (decide_eq_true hm)]

theorem find?_congr_cons {r : Record} {rs rs' : Records} (h : rs.find? a = rs'.find? a) :
    find? (r :: rs) a = find? (r :: rs') a := by
  cases r with
  | unreadable v => exact h
  | mock m => rw [find?_mock_cons, find?_mock_cons, h]

theorem any_hasId_eq_isSome (rs : Records) (id : MockId) : rs.any (·.hasId id) = (rs.find? id).isSome := by
  rw [Bool.eq_iff_iff, any_hasId_iff, Option.isSome_iff_exists]
  refine ⟨exists_find?, ?_⟩
  rintro ⟨m, hm⟩
  obtain ⟨pre, post, rfl, -, rfl, -⟩ := replace_of_find? hm m
  exact id_mem_ids (by simp)

theorem find?_replace_of_ne (hm : m.id = a) (hne : a ≠ b) (rs : Records) :
    (rs.replace a m).find? b = rs.find? b := by
  induction rs with
  | nil => rfl
  | cons r rs ih =>
    rw [replace]
    split
    · next hr =>
      have hm : (Record.mock m).hasId a = true := decide_eq_true hm
      rw [find?_cons_of_not_hasId (Record.not_hasId_of_ne hm hne),
        find?_cons_of_not_hasId (Record.not_hasId_of_ne hr hne)]
    · exact find?_congr_cons ih

theorem find?_remove_of_ne (hne : a ≠ b) (rs : Records) : (rs.remove a).find? b = rs.find? b := by
  induction rs with
  | nil => rfl
  | cons r rs ih =>
    rw [remove, List.filter_cons]
    split
    · exact find?_congr_cons ih
    · next hr =>
      have hr : r.hasId a = true := by simpa using hr
      rw [find?_cons_of_not_hasId (Record.not_hasId_of_ne hr hne)]
      exact ih

theorem replace_replace_comm (hm : m.id = a) (hn : n.id = b) (hne : a ≠ b) (rs : Records) :
    (rs.replace a m).replace b n = (rs.replace b n).replace a m := by
  have hm : (Record.mock m).hasId a = true := decide_eq_true hm
  have hn : (Record.mock n).hasId b = true := decide_eq_true hn
  -- a record has one id, and so has the mock that takes its place: where one replacement stops, the other goes on
  induction rs with
  | nil => rfl
  | cons r rs ih =>
    by_cases ha : r.hasId a = true
    · rw [replace, if_pos ha, replace, if_neg (Record.not_hasId_of_ne hm hne), replace,
        if_neg (Record.not_hasId_of_ne ha hne), replace, if_pos ha]
    · by_cases hb : r.hasId b = true
      · rw [replace, if_neg ha, replace, if_pos hb, replace, if_pos hb, replace,
          if_neg (Record.not_hasId_of_ne hn hne.symm)]
      · rw [replace, if_neg ha, replace, if_neg hb, ih, replace, if_neg hb, replace, if_neg ha]

theorem replace_remove_comm (hm : m.id = a) (hne : a ≠ b) (rs : Records) :
    (rs.replace a m).remove b = (rs.remove b).replace a m := by
  have hm : (Record.mock m).hasId a = true := decide_eq_true hm
  unfold remove
  induction rs with
  | nil => rfl
  | cons r rs ih =>
    by_cases ha : r.hasId a = true
    · rw [replace, if_pos ha, List.filter_cons_of_pos (by simpa using Record.not_hasId_of_ne hm hne),
        List.filter_cons_of_pos (by simpa using Record.not_hasId_of_ne ha hne), replace, if_pos ha]
    · rw [replace, if_neg ha, List.filter_cons, List.filter_cons, ih]
      split
      · rw [replace, if_neg ha]
      · rfl

/-- The first mock of an id is replaced, or all mocks of the id are dropped if there is no other one. -/
def alter (rs : Records) (id : MockId) : Option Mock → Records
  | some m => rs.replace id m
  | none => rs.remove id

variable {new? new?' : Option Mock}

theorem find?_alter_of_ne (hnew : ∀ m ∈ new?, m.id = a) (hne : a ≠ b) (rs : Records) :
    (rs.alter a new?).find? b = rs.find? b := by
  cases new? with
  | none => exact find?_remove_of_ne hne rs
  | some m => exact find?_replace_of_ne (hnew m rfl) hne rs

theorem alter_alter_comm (hnew : ∀ m ∈ new?, m.id = a) (hnew' : ∀ m ∈ new?', m.id = b) (hne : a ≠ b)
    (rs : Records) : (rs.alter a new?).alter b new?' = (rs.alter b new?').alter a new? := by
  cases new? with
  | none =>
    cases new?' with
    | none => exact List.filter_comm ..
    | some n => exact (replace_remove_comm (hnew' n rfl) hne.symm rs).symm
  | some m =>
    cases new?' with
    | none => exact replace_remove_comm (hnew m rfl) hne rs
    | some n => exact replace_replace_comm (hnew m rfl) (hnew' n rfl) hne rs

theorem mem_alter {r : Record} (h : r ∈ rs.alter a new?) : r ∈ rs ∨ ∃ m ∈ new?, r = .mock m := by
  cases new? with
  | none => exact .inl (List.mem_filter.1 h).1
  | some m => exact (mem_replace h).imp_right fun hr => ⟨m, rfl, hr⟩

/-- Of records that were read, all are read again as they were written, also if some are altered. -/
theorem ofEntries_set_alter (hnew : ∀ m ∈ new?, m.Normal Mock.AnyLeaf) (s t : Store) (id : MockId) :
    ofEntries (t.set ((ofEntries s.entries).alter id new?).toEntries).entries =
      (ofEntries s.entries).alter id new? := by
  rw [ofEntries_set]
  refine (List.map_congr_left fun r hr => ?_).trans (List.map_id' _)
  obtain hold | ⟨m, hm, rfl⟩ := mem_alter hr
  · obtain ⟨v, rfl⟩ := exists_ofJson_of_mem hold
    exact Record.settled_ofJson v
  · exact Record.settled_mock (hnew m hm)

end Records

/-! ### Alterations -/

/-- An operation about the first mock of an id. It is refused, or it is answered and another mock takes the
place of this one, or it is answered and all mocks of the id are dropped. -/
def Mocks.alter {α : Type} (id : MockId) (apply : Mock → Except StoreError (α × Option Mock)) : Operation α :=
  fun entries =>
  let rs := Records.ofEntries entries
  match rs.find? id with
  | none => .error (.notFound id)
  | some old => (apply old).map fun (x, new?) => (x, (rs.alter id new?).toEntries)

/-- An operation about one mock that leaves it its id, and in normal form. -/
structure Alteration (α : Type) where
  id : MockId
  apply : Mock → Except StoreError (α × Option Mock)
  id_eq : ∀ {old new : Mock} {x : α}, apply old = .ok (x, some new) → new.id = old.id
  normal : ∀ {old new : Mock} {x : α}, apply old = .ok (x, some new) → old.Normal Mock.AnyLeaf →
    new.Normal Mock.AnyLeaf

/-- An edit with its answer; its errors are those of the store. -/
def MockEdit.withReply {α : Type} (e : MockEdit α) (old : Mock) : Except StoreError (α × Option Mock) :=
  ((e.apply old).mapError .input).map fun new => (e.reply old new, some new)

theorem MockEdit.edits_of_withReply {c : Call} {e : MockEdit c.Answer} {old new : Mock} {x : c.Answer}
    (hc : c.edit? = some e) (h : e.withReply old = .ok (x, some new)) : c.Edits old new := by
  unfold withReply at h
  cases hnew : e.apply old with
  | error err =>
    rw [hnew] at h
    contradiction
  | ok m =>
    rw [hnew] at h
    cases h
    exact Call.edits_of_edit? hc hnew

namespace Alteration

def ofEdit {c : Call} (e : MockEdit c.Answer) (hc : c.edit? = some e) (ht : c.Tidy Mock.AnyLeaf) :
    Alteration c.Answer where
  id := e.id
  apply := e.withReply
  id_eq h := (MockEdit.edits_of_withReply hc h).id_eq
  normal h hold := Call.normal_of_edits (MockEdit.edits_of_withReply hc h) ht trivial hold

def delete (id : MockId) : Alteration Unit where
  id
  apply _ := .ok ((), none)
  id_eq h := nomatch h
  normal h := nomatch h

end Alteration

theorem Mocks.modify_eq_alter (id : MockId) (edit : Mock → Except InputError Mock) :
    modify id edit = alter id (MockEdit.withReply ⟨id, edit, fun _ new => new⟩) := by
  funext entries
  unfold modify alter MockEdit.withReply
  dsimp only
  cases (Records.ofEntries entries).find? id with
  | none => rfl
  | some old =>
    dsimp only
    cases edit old <;> rfl

theorem Mocks.delete_eq_alter (id : MockId) : delete id = alter id fun _ => .ok ((), none) := by
  funext entries
  unfold delete alter
  dsimp only
  rw [Records.any_hasId_eq_isSome]
  cases (Records.ofEntries entries).find? id <;> rfl

namespace Call

/-- The id of the mock that a call is about, if it changes or drops one that must be there. -/
def target? : Call → Option MockId
  | toggle id | delete id | updateVerb id _ | updateUrl id _ | updateField id _ _ | pushItem id _
  | removeItem id _ _ => some id
  | _ => none

variable {c : Call} {a : MockId}

theorem operation_eq_alter {e : MockEdit c.Answer} (hc : c.edit? = some e) :
    c.operation = Mocks.alter e.id e.withReply := by
  cases c with
  | updateVerb _ _ | updateField _ _ _ | pushItem _ _ | removeItem _ _ _ =>
    cases hc
    exact Mocks.modify_eq_alter _ _
  | toggle id =>
    cases hc
    funext entries
    unfold operation Mocks.toggle Mocks.modify Mocks.alter
    dsimp only
    cases (Records.ofEntries entries).find? id <;> rfl
  | updateUrl id url =>
    cases hc
    funext entries
    unfold operation Mocks.updateUrl Mocks.get Mocks.modify Mocks.alter MockEdit.withReply
    dsimp only
    cases (Records.ofEntries entries).find? id with
    | none => rfl
    | some old =>
      dsimp only [bind, Except.bind]
      cases Mocks.withUrl url old <;> rfl
  | _ => contradiction

theorem edit_of_target? (hc : c.target? = some a) : c = .delete a ∨ ∃ e, c.edit? = some e ∧ e.id = a := by
  cases c with
  | delete _ =>
    cases hc
    exact .inl rfl
  | toggle _ | updateVerb _ _ | updateUrl _ _ | updateField _ _ _ | pushItem _ _ | removeItem _ _ _ =>
    cases hc
    exact .inr ⟨_, rfl, rfl⟩
  | _ => contradiction

/-- Each call about one mock is an alteration of it. -/
theorem exists_alteration (hc : c.target? = some a) (ht : c.Tidy Mock.AnyLeaf) :
    ∃ e : Alteration c.Answer, e.id = a ∧ c.operation = Mocks.alter e.id e.apply := by
  obtain rfl | ⟨e, he, rfl⟩ := edit_of_target? hc
  · exact ⟨.delete a, rfl, Mocks.delete_eq_alter a⟩
  · exact ⟨.ofEdit e he ht, rfl, operation_eq_alter he⟩

end Call

/-! ### Outcomes -/

namespace Alteration

variable {α β : Type} {f : Alteration β} {a b : MockId} {o : Except StoreError (α × Option Mock)}
  {o' : Except StoreError (β × Option Mock)}

/-- What comes of an alteration on a store: an error, or an answer and what is to be put in the place of the
mock. The error of a file that cannot be written comes last. -/
def outcome (e : Alteration α) (writable : Bool) (s : Store) : Except StoreError (α × Option Mock) :=
  match (Records.ofEntries s.entries).find? e.id with
  | none => .error (.notFound e.id)
  | some old => do
    let r ← e.apply old
    if CanWrite writable s then .ok r else .error .unavailable

/-- The store and the answer when an outcome is carried out for an id. -/
def carryOut (id : MockId) (s : Store) : Except StoreError (α × Option Mock) → Except StoreError α × Store
  | .error err => (.error err, s)
  | .ok (x, new?) => (.ok x, s.set ((Records.ofEntries s.entries).alter id new?).toEntries)

/-- The mock of an outcome has the id, and it is in normal form. -/
def Fits (id : MockId) (o : Except StoreError (α × Option Mock)) : Prop :=
  ∀ x new?, o = .ok (x, new?) → ∀ m ∈ new?, m.id = id ∧ m.Normal Mock.AnyLeaf

theorem attempt_alter (e : Alteration α) (writable : Bool) (s : Store) :
    s.attempt writable (Mocks.alter e.id e.apply) = carryOut e.id s (e.outcome writable s) := by
  unfold attempt Mocks.alter outcome
  dsimp only
  cases (Records.ofEntries s.entries).find? e.id with
  | none => rfl
  | some old =>
    dsimp only
    cases e.apply old with
    | error err => rfl
    | ok r =>
      have hnil : ((Records.ofEntries s.entries).alter e.id r.2).toEntries ≠ [] := List.cons_ne_nil _ _
      simp only [Except.map, bind, Except.bind, hnil, false_or]
      split <;> rfl

theorem fits_outcome (e : Alteration α) (writable : Bool) (s : Store) : Fits e.id (e.outcome writable s) := by
  intro x new? h m hm
  obtain rfl : new? = some m := hm
  unfold outcome at h
  cases hfind : (Records.ofEntries s.entries).find? e.id with
  | none =>
    rw [hfind] at h
    contradiction
  | some old =>
    rw [hfind] at h
    obtain ⟨r, happly, h⟩ := bind_eq_ok.1 h
    split at h
    · cases h
      obtain ⟨pre, post, hsplit, -, hid, -⟩ := Records.replace_of_find? hfind old
      have hmem : .mock old ∈ Records.ofEntries s.entries := by simp [hsplit]
      obtain ⟨v, hv⟩ := Records.exists_ofJson_of_mem hmem
      have hnormal : old.Normal Mock.AnyLeaf :=
        Mock.normal_of_ofJson? (Json.every_true v) (Record.ofJson_eq_mock hv.symm)
      exact ⟨(e.id_eq happly).trans hid, e.normal happly hnormal⟩
    · contradiction

theorem fst_carryOut (id : MockId) (s : Store) (o : Except StoreError (α × Option Mock)) :
    (carryOut id s o).1 = o.map (·.1) := by
  cases o <;> rfl

theorem relisted_carryOut (id : MockId) (s : Store) (o : Except StoreError (α × Option Mock)) :
    Relisted s (carryOut id s o).2 := by
  cases o with
  | error err => exact .same
  | ok r => exact .other _

theorem ofEntries_carryOut (h : Fits a o) (s : Store) : Records.ofEntries (carryOut a s o).2.entries =
    match o with
    | .error _ => .ofEntries s.entries
    | .ok (_, new?) => (Records.ofEntries s.entries).alter a new? := by
  cases o with
  | error err => rfl
  | ok r => exact Records.ofEntries_set_alter (fun m hm => (h r.1 r.2 rfl m hm).2) s s a

/-- What comes of an alteration does not depend on the mocks of other ids. -/
theorem outcome_carryOut (h : Fits a o) (hne : a ≠ f.id) (writable : Bool) (s : Store) :
    f.outcome writable (carryOut a s o).2 = f.outcome writable s := by
  have hfind : (Records.ofEntries (carryOut a s o).2.entries).find? f.id =
      (Records.ofEntries s.entries).find? f.id := by
    rw [ofEntries_carryOut h]
    cases o with
    | error err => rfl
    | ok r => exact Records.find?_alter_of_ne (fun m hm => (h r.1 r.2 rfl m hm).1) hne _
  unfold outcome
  rw [hfind]
  simp only [(relisted_carryOut a s o).canWrite]

/-- Of two lists that are written, the first one leaves no more than its notice. -/
theorem set_set (s : Store) (rs rs' new : Records) :
    (s.set rs.toEntries).set new.toEntries = (s.set rs'.toEntries).set new.toEntries := by
  rw [(Relisted.other rs).set_eq, (Relisted.other rs').set_eq]
  rfl

theorem carryOut_carryOut_comm (h : Fits a o) (h' : Fits b o') (hne : a ≠ b) (s : Store) :
    (carryOut b (carryOut a s o).2 o').2 = (carryOut a (carryOut b s o').2 o).2 := by
  -- an error leaves the store as it is, in either order
  cases o with
  | error err => rfl
  | ok r =>
    cases o' with
    | error err => rfl
    | ok r' =>
      have hcomm := Records.alter_alter_comm (fun m hm => (h r.1 r.2 rfl m hm).1)
        (fun m hm => (h' r'.1 r'.2 rfl m hm).1) hne (.ofEntries s.entries)
      have hfirst := ofEntries_carryOut h s
      have hsecond := ofEntries_carryOut h' s
      simp only [carryOut] at hfirst hsecond ⊢
      rw [hfirst, hsecond, hcomm]
      exact set_set ..

end Alteration

/-! ### Calls -/

namespace Store

variable {c d : Call} {a b : MockId}

theorem exists_outcome (hc : c.target? = some a) (ht : c.Tidy Mock.AnyLeaf) :
    ∃ e : Alteration c.Answer, e.id = a ∧ ∀ writable s,
      s.attempt writable c.operation = Alteration.carryOut a s (e.outcome writable s) := by
  obtain ⟨e, rfl, he⟩ := Call.exists_alteration hc ht
  exact ⟨e, rfl, fun writable s => by rw [he, e.attempt_alter]⟩

/-- A call answers as if a call about another mock had not been made before it. -/
theorem fst_attempt_after (hc : c.target? = some a) (hd : d.target? = some b) (hne : a ≠ b)
    (htc : c.Tidy Mock.AnyLeaf) (htd : d.Tidy Mock.AnyLeaf) (writable writable' : Bool) (s : Store) :
    ((s.after writable c).attempt writable' d.operation).1 = (s.attempt writable' d.operation).1 := by
  obtain ⟨e, rfl, he⟩ := exists_outcome hc htc
  obtain ⟨f, rfl, hf⟩ := exists_outcome hd htd
  rw [hf, hf, after, he, Alteration.outcome_carryOut (e.fits_outcome writable s) hne]
  rw [Alteration.fst_carryOut, Alteration.fst_carryOut]

theorem after_after_comm (hc : c.target? = some a) (hd : d.target? = some b) (hne : a ≠ b)
    (htc : c.Tidy Mock.AnyLeaf) (htd : d.Tidy Mock.AnyLeaf) (writable writable' : Bool) (s : Store) :
    (s.after writable c).after writable' d = (s.after writable' d).after writable c := by
  obtain ⟨e, rfl, he⟩ := exists_outcome hc htc
  obtain ⟨f, rfl, hf⟩ := exists_outcome hd htd
  have hfits := e.fits_outcome writable s
  have hfits' := f.fits_outcome writable' s
  simp only [after, he, hf]
  rw [Alteration.outcome_carryOut hfits hne, Alteration.outcome_carryOut hfits' hne.symm]
  exact Alteration.carryOut_carryOut_comm hfits hfits' hne s

/-- Two calls about different mocks answer the same in either order, each as if the other had not been made,
and they leave the same store. -/
theorem attempt_comm (hc : c.target? = some a) (hd : d.target? = some b) (hne : a ≠ b)
    (htc : c.Tidy Mock.AnyLeaf) (htd : d.Tidy Mock.AnyLeaf) (writable writable' : Bool) (s : Store) :
    let cd := (s.after writable c).attempt writable' d.operation
    let dc := (s.after writable' d).attempt writable c.operation
    (s.attempt writable c.operation).1 = dc.1 ∧ cd.1 = (s.attempt writable' d.operation).1 ∧ cd.2 = dc.2 :=
  ⟨(fst_attempt_after hd hc hne.symm htd htc writable' writable s).symm,
    fst_attempt_after hc hd hne htc htd writable writable' s,
    after_after_comm hc hd hne htc htd writable writable' s⟩

/-- A store with a mock in an old form, an element that is no mock, and an id that two mocks have. -/
def crowded : Store :=
  { inMemory with
    entries :=
      [(Records.key, .arr
        [.obj [("id", .str "4"), ("url", .str "/a?MT=GET"), ("mockData", .null)],
         .int 7,
         .obj [("id", .int 5), ("urlTemplate", .str "/b?MT=GET"), ("body", .int 1)],
         .obj [("id", .int 4), ("urlTemplate", .str "/c?MT=GET"), ("body", .int 2)]])] }

/-- Both mocks of one id are dropped, and the other mock gets another verb. -/
theorem attempt_comm_crowded :
    let c := Call.delete ⟨4⟩
    let d := Call.updateVerb ⟨5⟩ ⟨"PUT"⟩
    let cd := (crowded.after true c).attempt true d.operation
    let dc := (crowded.after true d).attempt true c.operation
    d.Tidy Mock.AnyLeaf ∧ dc.1 = .ok () ∧ cd.1.isOk = true ∧ cd.2 = dc.2 ∧
      Records.stored cd.2.entries = [.int 7, .obj
        [("id", .int 5), ("originalUrl", .str ""), ("urlTemplate", .str "/b?MT=PUT"), ("verb", .str "PUT"),
          ("body", .int 1), ("enabled", .bool true)]] := by
  intro c d cd dc
  have htidy : d.Tidy Mock.AnyLeaf := show Verb.IsNormal ⟨"PUT"⟩ by decide +kernel
  have hc : c.target? = some ⟨4⟩ := rfl
  have hd : d.target? = some ⟨5⟩ := rfl
  obtain ⟨hfirst, hsecond, hstore⟩ := attempt_comm hc hd (by decide) trivial htidy true true crowded
  exact ⟨htidy, hfirst.symm.trans (by rfl), (congrArg Except.isOk hsecond).trans (by decide +kernel), hstore,
    by rfl⟩

/-- Calls about mocks that are all different leave the same store in any order. -/
theorem foldl_after_perm {cs ds : List Call} (h : cs.Perm ds)
    (hne : cs.Pairwise fun c d => c.target? ≠ d.target?)
    (hall : ∀ c ∈ cs, c.target?.isSome = true ∧ c.Tidy Mock.AnyLeaf) (writable : Bool) (s : Store) :
    cs.foldl (·.after writable ·) s = ds.foldl (·.after writable ·) s := by
  have : Std.Symm fun c d : Call => c.target? ≠ d.target? := ⟨fun _ _ => Ne.symm⟩
  refine h.foldl_eq' (fun c hc d hd t => ?_) s
  by_cases hcd : c = d
  · rw [hcd]
  · obtain ⟨⟨a, ha⟩, htc⟩ := (hall c hc).imp_left Option.isSome_iff_exists.1
    obtain ⟨⟨b, hb⟩, htd⟩ := (hall d hd).imp_left Option.isSome_iff_exists.1
    have hab : a ≠ b := by
      have htarget := hne.forall hc hd hcd
      rw [ha, hb] at htarget
      exact fun heq => htarget (congrArg some heq)
    exact after_after_comm ha hb hab htc htd writable writable t

end Store
end MockRedirect
