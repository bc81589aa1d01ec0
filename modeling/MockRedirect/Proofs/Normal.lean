import MockRedirect.Proofs.Ascii
import MockRedirect.Proofs.Edit
import MockRedirect.Proofs.Pieces
import MockRedirect.Proofs.Record
import MockRedirect.Proofs.Shape
/-! Mocks in normal form: the id is in range, the verb is trimmed and in upper case, and no object of
the body repeats a key. Every mock that is read is in normal form, and one in normal form is read back
as it was written. -/
namespace MockRedirect
open Text

/-! ### Verbs -/

namespace Text

theorem upper_cases (c : Char) : upper (upper c) = upper c ∧ isBlank (upper c) = isBlank c := by
  by_cases h : isAsciiLower c = true
  · exact of_ascii (p := fun c => upper (upper c) = upper c ∧ isBlank (upper c) = isBlank c)
      (by decide +kernel) (toNat_lt_of_isAsciiLower h)
  · have hup : upper c = c := if_neg h
    exact ⟨by rw [hup, hup], by rw [hup]⟩

theorem uppercase_uppercase (s : List Char) : uppercase (uppercase s) = uppercase s := by
  rw [uppercase, uppercase, List.map_map]
  exact List.map_congr_left fun c _ => (upper_cases c).1

/-- Letters have no blanks in any case, so trimming does not mind the case. -/
theorem trim_uppercase (s : List Char) : trim (uppercase s) = uppercase (trim s) := by
  have hblank : isBlank ∘ upper = isBlank := funext fun c => (upper_cases c).2
  rw [trim, trimStart, uppercase, List.dropWhile_map, hblank, trimEnd, ← List.map_reverse,
    List.dropWhile_map, hblank, ← List.map_reverse]
  rfl

end Text

namespace Verb

/-- A verb without blanks at its ends and in upper case. -/
def IsNormal (v : Verb) : Prop := of v.text.toList = v

instance (v : Verb) : Decidable v.IsNormal := inferInstanceAs (Decidable (_ = _))

theorem isNormal_of (s : List Char) : (of s).IsNormal := by
  rw [IsNormal, of, of, String.toList_ofList, trim_uppercase, trim_trim, uppercase_uppercase]

theorem isNormal_of_filled {s : List Char} {v : Verb} (h : (of s).filled = some v) : v.IsNormal := by
  rw [filled] at h
  split at h
  · contradiction
  · cases h
    exact isNormal_of s

theorem isNormal_of_find? {s : List Char} {v : Verb} (h : find? s = some v) : v.IsNormal := by
  induction s with
  | nil => contradiction
  | cons c cs ih =>
    rw [find?] at h
    split at h
    · dsimp only at h
      split at h
      · exact ih h
      · exact isNormal_of_filled h
    · exact ih h

end Verb

theorem Address.isNormal_of_verb? {a : Address} {v : Verb} (h : a.verb? = some v) : v.IsNormal := by
  obtain ⟨s, -, h⟩ := Option.bind_eq_some_iff.1 h
  exact Verb.isNormal_of_filled h

namespace Endpoint

theorem isNormal_of_typedVerb? {s : List Char} {v : Verb} (h : typedVerb? s = some v) :
    v.IsNormal := by
  obtain ⟨⟨_, query⟩, -, h⟩ := Option.bind_eq_some_iff.1 h
  exact Verb.isNormal_of_find? h

theorem isNormal_of_parts {raw s path : List Char} {v : Verb} (h : parts raw s = .ok (path, some v)) :
    v.IsNormal := by
  rw [parts] at h
  split at h
  · split at h
    · obtain ⟨-, hv⟩ := Prod.mk.inj (Except.ok.inj h)
      exact Address.isNormal_of_verb? hv
    · contradiction
  · obtain ⟨-, hv⟩ := Prod.mk.inj (Except.ok.inj h)
    exact isNormal_of_typedVerb? hv

theorem isNormal_of_compile {text : String} {fallback : Verb} {e : Endpoint}
    (hf : fallback.IsNormal) (h : compile text fallback = .ok e) : e.verb.IsNormal := by
  rw [compile] at h
  split at h
  · contradiction
  · obtain ⟨⟨path, v⟩, hparts, h⟩ := bind_eq_ok.1 h
    cases h
    cases v with
    | none => exact hf
    | some v => exact isNormal_of_parts hparts

end Endpoint

/-! ### Ids -/

namespace MockId

theorem reduce_of_inRange {id : MockId} (h : id.InRange) : reduce id.value.natAbs = id := by
  obtain ⟨n⟩ := id
  obtain ⟨h1, h2⟩ : 1 ≤ n ∧ n ≤ (highest : Int) := h
  have hn : ((n.natAbs : Nat) : Int) = n := Int.natAbs_of_nonneg (by omega)
  have habs : 1 ≤ n.natAbs ∧ n.natAbs ≤ highest := by omega
  rw [reduce, if_pos habs, hn]

/-- Whatever an id is read from, it is in range. -/
theorem inRange_of_ofJson {v : Json} {id : MockId} (h : ofJson v = .ok id) : id.InRange := by
  have hreduce {n : Nat} (h : Except.ok (ε := Fault) (reduce n) = .ok id) : id.InRange := by
    cases h
    exact inRange_reduce n
  cases v with
  | int n => exact hreduce h
  | float x => exact hreduce h
  | str s =>
    rw [ofJson, ofText] at h
    split at h
    · exact hreduce h
    · contradiction
  | _ => contradiction

theorem inRange_of_fit {v : Json} {n : Int} (h : decoder.shape.fit v = .ok (.int n)) :
    (⟨n⟩ : MockId).InRange := by
  simp only [decoder, Shape.fit] at h
  cases hv : ofJson v with
  | error e =>
    rw [hv] at h
    contradiction
  | ok id =>
    rw [hv] at h
    cases h
    exact inRange_of_ofJson hv

end MockId

/-! ### Mocks -/

namespace Mock

/-- Every number, text and flag may stand in a body. -/
abbrev AnyLeaf : Json → Prop := fun _ => True

structure Normal (leaf : Json → Prop) (m : Mock) : Prop where
  id : m.id.InRange
  verb : m.verb.IsNormal
  body : m.body.Tidy leaf

theorem Normal.readBack {leaf : Json → Prop} {m : Mock} (h : m.Normal leaf) : m.readBack = m := by
  obtain ⟨id, typed, template, verb, body, enabled⟩ := m
  have hid : MockId.reduce id.value.natAbs = id := MockId.reduce_of_inRange h.id
  have hverb : Verb.of verb.text.toList = verb := h.verb
  have hbody : body.merged = body := h.body.merged_eq
  rw [Mock.readBack]
  simp only [hid, hverb, hbody]

/-- Whatever a mock is read from, it is in normal form, and its body has no scalars that were not there. -/
theorem normal_of_ofJson? {keys : List String → Prop} {leaf : Json → Prop} {v : Json} {m : Mock}
    (hv : v.Every keys leaf) (h : decoder.ofJson? v = some m) : m.Normal leaf := by
  rw [Decoder.ofJson?] at h
  split at h
  · next w hw =>
    obtain ⟨members, rfl, hgives⟩ := Shape.fit_record (by decide) (fun _ => hv.of_isPart) hw
    simp only [decoder] at h
    split at h
    · next id _ _ verb body _ hmembers =>
      cases h
      cases hmembers
      obtain ⟨⟩ | ⟨⟨-, hid⟩, hgives⟩ := hgives
      obtain ⟨⟩ | ⟨-, hgives⟩ := hgives
      obtain ⟨⟩ | ⟨-, hgives⟩ := hgives
      obtain ⟨⟩ | ⟨-, hgives⟩ := hgives
      obtain ⟨⟩ | ⟨⟨-, hbody⟩, -⟩ := hgives
      refine ⟨?_, Verb.isNormal_of _, ?_⟩
      · obtain ⟨u, -, hu⟩ | hmissing := hid
        · exact MockId.inRange_of_fit hu
        · contradiction
      · obtain ⟨u, hpart, hu⟩ | hmissing := hbody
        · cases hu
          exact hpart.merged
        · contradiction
    · contradiction
  · contradiction

end Mock

/-! ### Records -/

namespace Record

/-- A record that is read back as it is. -/
def Settled (r : Record) : Prop := ofJson r.toJson = r

theorem ofJson_eq_mock {v : Json} {m : Mock} (h : ofJson v = .mock m) : Mock.decoder.ofJson? v = some m := by
  rw [ofJson] at h
  split at h
  · next hm =>
    cases h
    exact hm
  · contradiction

/-- What is no mock is kept as it is. -/
theorem ofJson_eq_unreadable {v w : Json} (h : ofJson v = .unreadable w) : w = v := by
  rw [ofJson] at h
  split at h
  · contradiction
  · cases h
    rfl

theorem settled_mock {leaf : Json → Prop} {m : Mock} (h : m.Normal leaf) : (mock m).Settled := by
  rw [Settled, toJson, ofJson_toJson, h.readBack]

theorem settled_ofJson (v : Json) : (ofJson v).Settled := by
  cases hv : ofJson v with
  | mock m => exact settled_mock (Mock.normal_of_ofJson? (Json.every_true v) (ofJson_eq_mock hv))
  | unreadable w =>
    obtain rfl := ofJson_eq_unreadable hv
    exact hv

end Record

end MockRedirect
