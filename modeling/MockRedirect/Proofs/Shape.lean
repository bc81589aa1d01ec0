import MockRedirect.Json.Shape
import MockRedirect.Proofs.Address
import MockRedirect.Proofs.Tree
import Mathlib.Data.List.Forall2
import Mathlib.Data.List.Nodup
/-! What a record is brought to: an object with the fields of its shape, in order, and in each of them
what the shape of the field makes of some tree, or what stands for the field when it is missing. -/
namespace MockRedirect
open List

/-- A member that can stand for a field if the value of the field is made of a tree that satisfies `P`. -/
structure Field.Gives (P : Json → Prop) (f : Field Shape) (m : String × Json) : Prop where
  name : m.1 = f.name
  value : (∃ u, P u ∧ f.content.fit u = .ok m.2) ∨ f.whenMissing = .ok m.2

namespace Shape

variable {P : Json → Prop} {fields : List (Field Shape)} {ms given members : Members}

/-- The field with the function that brings its values to their normal form. -/
def fitter (f : Field Shape) : Field (Json → Except Fault Json) :=
  ⟨f.name, f.aliases, f.absence, fit f.content⟩

theorem fitters_eq_map (fields : List (Field Shape)) : fitters fields = fields.map fitter := by
  induction fields with
  | nil => rfl
  | cons f fs ih => rw [fitters, ih, map_cons, fitter]

/-- What is gathered by name has the name of a field, and a value that its shape has made. -/
theorem gather_sound (h : gather (fitters fields) ms given = .ok members) (hms : ∀ m ∈ ms, P m.2)
    (hgiven : ∀ m ∈ given, ∃ f ∈ fields, m.1 = f.name ∧ ∃ u, P u ∧ f.content.fit u = .ok m.2) :
    ∀ m ∈ members, ∃ f ∈ fields, m.1 = f.name ∧ ∃ u, P u ∧ f.content.fit u = .ok m.2 := by
  induction ms generalizing given with
  | nil =>
    cases h
    exact hgiven
  | cons m ms ih =>
    obtain ⟨k, v⟩ := m
    rw [forall_mem_cons] at hms
    rw [gather] at h
    split at h
    · exact ih h hms.2 hgiven
    · next g hg =>
      rw [fitters_eq_map] at hg
      obtain ⟨f, hf, rfl⟩ := mem_map.1 (mem_of_find?_eq_some hg)
      dsimp only at h
      split at h
      · contradiction
      · obtain ⟨w, hw, h⟩ := bind_eq_ok.1 h
        refine ih h hms.2 fun n hn => ?_
        obtain hn | hn := mem_append.1 hn
        · exact hgiven n hn
        · obtain rfl := mem_singleton.1 hn
          exact ⟨f, hf, rfl, v, hms.1, hw⟩

theorem forall₂_of_mapM {R : α → β → Prop} {g : α → Except ε β} {as : List α} {bs : List β}
    (hg : ∀ a ∈ as, ∀ b, g a = .ok b → R a b) (h : as.mapM g = .ok bs) : Forall₂ R as bs := by
  induction as generalizing bs with
  | nil =>
    cases h
    exact .nil
  | cons a as ih =>
    rw [mapM_cons] at h
    obtain ⟨b, hb, h⟩ := bind_eq_ok.1 h
    obtain ⟨bs, hbs, h⟩ := bind_eq_ok.1 h
    cases h
    rw [forall_mem_cons] at hg
    exact .cons (hg.1 b hb) (ih hg.2 hbs)

/-- The value of a field is the one given under its name, or what stands for it. -/
theorem complete_forall₂ {fields : List (Field α)} {R : Field α → String × Json → Prop}
    (hgiven : ∀ f ∈ fields, ∀ v, Members.get? f.name given = some v → R f (f.name, v))
    (hmissing : ∀ f ∈ fields, ∀ v, f.whenMissing = .ok v → R f (f.name, v))
    (h : Field.complete fields given = .ok members) : Forall₂ R fields members := by
  refine forall₂_of_mapM (fun f hf m hm => ?_) h
  split at hm
  · next v hv =>
    cases hm
    exact hgiven f hf v hv
  · cases hw : f.whenMissing with
    | error e =>
      rw [hw] at hm
      contradiction
    | ok v =>
      rw [hw] at hm
      cases hm
      exact hmissing f hf v hw

theorem complete_gives (hnames : (fields.map (·.name)).Nodup)
    (hgiven : ∀ m ∈ given, ∃ f ∈ fields, m.1 = f.name ∧ ∃ u, P u ∧ f.content.fit u = .ok m.2)
    (h : Field.complete fields given = .ok members) : Forall₂ (Field.Gives P) fields members := by
  refine complete_forall₂ (fun f hf v hv => ?_) (fun f _ v hw => ⟨rfl, .inr hw⟩) h
  obtain ⟨f', hf', hname, hfit⟩ := hgiven _ (Members.mem_of_get? hv)
  obtain rfl : f = f' := inj_on_of_nodup_map hnames hf hf' hname
  exact ⟨rfl, .inl hfit⟩

/-- What an array may leave out, an object may leave out too. -/
theorem whenMissing_of_whenShort {f : Field α} {expected : String} {i : Nat} {v : Json}
    (h : f.whenShort expected i = .ok v) : f.whenMissing = .ok v := by
  rw [Field.whenShort] at h
  rw [Field.whenMissing]
  split at h
  · next habsence =>
    cases h
    rw [habsence]
  · contradiction

theorem take_gives {expected : String} {i : Nat} {vs : List Json} (hvs : ∀ v ∈ vs, P v)
    (h : take expected i (fitters fields) vs = .ok members) : Forall₂ (Field.Gives P) fields members := by
  induction fields generalizing i vs members with
  | nil =>
    cases vs with
    | nil =>
      cases h
      exact .nil
    | cons v vs => contradiction
  | cons f fs ih =>
    rw [fitters_eq_map, map_cons, ← fitters_eq_map] at h
    cases vs with
    | nil =>
      obtain ⟨w, hw, h⟩ := bind_eq_ok.1 h
      obtain ⟨rest, hrest, h⟩ := bind_eq_ok.1 h
      cases h
      exact .cons ⟨rfl, .inr (whenMissing_of_whenShort (f := fitter f) hw)⟩ (ih hvs hrest)
    | cons v vs =>
      obtain ⟨w, hw, h⟩ := bind_eq_ok.1 h
      obtain ⟨rest, hrest, h⟩ := bind_eq_ok.1 h
      cases h
      rw [forall_mem_cons] at hvs
      exact .cons ⟨rfl, .inl ⟨v, hvs.1, hw⟩⟩ (ih hvs.2 hrest)

/-- The normal form of a record, whose fields are made of the parts of a tree. -/
theorem fit_record {name : String} {v w : Json} (hnames : (fields.map (·.name)).Nodup)
    (hparts : ∀ u, u.IsPart v → P u) (h : fit (.record name fields) v = .ok w) :
    ∃ members, w = .obj members ∧ Forall₂ (Field.Gives P) fields members := by
  cases v with
  | obj ms =>
    obtain ⟨given, hgiven, h⟩ := bind_eq_ok.1 h
    obtain ⟨members, hmembers, h⟩ := bind_eq_ok.1 h
    cases h
    exact ⟨members, rfl,
      complete_gives hnames (gather_sound hgiven (fun m hm => hparts _ ⟨m.1, hm⟩) (by simp)) hmembers⟩
  | arr vs =>
    rw [fit] at h
    cases ht : take (Field.count name fields) 0 (fitters fields) vs with
    | error e =>
      rw [ht] at h
      contradiction
    | ok members =>
      rw [ht] at h
      cases h
      exact ⟨members, rfl, take_gives hparts ht⟩
  | _ => contradiction

end Shape
end MockRedirect
