import MockRedirect.Proofs.Tree
import MockRedirect.Schema
/-! Which values are valid against the schema of a sample, by the meaning that JSON Schema gives to the
keywords of the rendered schema: those that have the shape of the sample. -/
namespace MockRedirect

theorem Members.mem_keys_iff {key : String} {ms : Members} :
    key ∈ keys ms ↔ ∃ v, get? key ms = some v := by
  induction ms with
  | nil => simp [keys]
  | cons m ms ih =>
    obtain ⟨k, v⟩ := m
    rw [keys, List.map_cons, ← keys, List.mem_cons, get?, ih]
    by_cases hk : k = key <;> simp [hk, eq_comm (a := key)]

namespace Json

/-! ### Validity -/

/-- The types of a value. A number without a fraction is an integer, too. -/
def types : Json → List String
  | .null => ["null"]
  | .bool _ => ["boolean"]
  | .int _ => ["number", "integer"]
  | .float x => if x.fraction.1 % x.fraction.2 = 0 then ["number", "integer"] else ["number"]
  | .str _ => ["string"]
  | .arr _ => ["array"]
  | .obj _ => ["object"]

/-- The keyword `type` names one type or a list of them. -/
def HasType (v : Json) : Json → Prop
  | .str name => name ∈ v.types
  | .arr names => ∃ name ∈ v.types, .str name ∈ names
  | _ => False

/-- The schemas that an object schema has for single keys. -/
def declared (schema : Members) : Members :=
  match Members.get? "properties" schema with
  | some (.obj ps) => ps
  | _ => []

/-- A value is valid against a schema: `true` admits every value, `false` none, and of an object each
keyword that is present has its say. What is said of members does not concern a value that is no object,
and what is said of elements does not concern one that is no array. -/
inductive Validates : (schema value : Json) → Prop
  | all (v : Json) : Validates (.bool true) v
  | keywords {schema : Members} {v : Json}
    (type : ∀ t, Members.get? "type" schema = some t → v.HasType t)
    (properties : ∀ key s u, Members.get? key (declared schema) = some s → v.field? key = some u →
      Validates s u)
    (required : ∀ ks key ms, Members.get? "required" schema = some (.arr ks) → .str key ∈ ks →
      v = .obj ms → key ∈ Members.keys ms)
    (additional : ∀ s key u, Members.get? "additionalProperties" schema = some s →
      Members.get? key (declared schema) = none → v.field? key = some u → Validates s u)
    (items : ∀ s i u, Members.get? "items" schema = some s → v.item? i = some u → Validates s u) :
    Validates (.obj schema) v

/-! ### Shapes -/

/-- The type of a scalar. -/
def scalarType? : Json → Option ScalarType
  | .null => some .null
  | .bool _ => some .boolean
  | .int _ | .float _ => some .number
  | .str _ => some .string
  | .arr _ | .obj _ => none

/-- A value has the shape of a sample: a scalar of the same type, an object with the keys of the sample
but the empty one, each value with the shape of the one there, or an array whose elements have the shape
of the first one there. -/
inductive HasShape : (sample value : Json) → Prop
  | scalar {v w : Json} {t : ScalarType} (hv : v.scalarType? = some t) (hw : w.scalarType? = some t) :
    HasShape v w
  | object {ms ns : Members}
    (keys : ∀ key, key ∈ Members.keys ns ↔ key ∈ Members.keys ms ∧ key ≠ "")
    (values : ∀ key v w, Members.get? key ms = some v → Members.get? key ns = some w → HasShape v w) :
    HasShape (.obj ms) (.obj ns)
  | array {vs ws : List Json} (elements : ∀ v ∈ vs.head?, ∀ w ∈ ws, HasShape v w) :
    HasShape (.arr vs) (.arr ws)

/-- The parts of a sample that its schema is made from: the sample, the values under the keys that are
not empty, and the first elements of the arrays. -/
inductive Reaches (v : Json) : Json → Prop
  | refl : Reaches v v
  | value {ms : Members} {key : String} {u : Json} (h : Reaches v (.obj ms)) (hkey : key ≠ "")
    (hu : Members.get? key ms = some u) : Reaches v u
  | first {x : Json} {xs : List Json} (h : Reaches v (.arr (x :: xs))) : Reaches v x

/-- No key of an object is empty, and all elements of an array have the shape of the first one. -/
def IsUniform : Json → Prop
  | .obj ms => "" ∉ Members.keys ms
  | .arr xs => ∀ x ∈ xs.head?, ∀ y ∈ xs, HasShape x y
  | _ => True

variable {v w : Json} {ms ns : Members} {vs ws : List Json}

theorem hasShape_scalar {t : ScalarType} (hv : v.scalarType? = some t) :
    HasShape v w ↔ w.scalarType? = some t := by
  refine ⟨fun h => ?_, .scalar hv⟩
  cases h with
  | scalar hv' hw =>
    obtain rfl := Option.some.inj (hv.symm.trans hv')
    exact hw
  | object _ _ => contradiction
  | array _ => contradiction

theorem hasShape_obj : HasShape (.obj ms) w ↔ ∃ ns, w = .obj ns ∧
    (∀ key, key ∈ Members.keys ns ↔ key ∈ Members.keys ms ∧ key ≠ "") ∧
      ∀ key v u, Members.get? key ms = some v → Members.get? key ns = some u → HasShape v u := by
  constructor
  · intro h
    cases h with
    | scalar hv _ => contradiction
    | object keys values => exact ⟨_, rfl, keys, values⟩
  · rintro ⟨ns, rfl, keys, values⟩
    exact .object keys values

theorem hasShape_arr : HasShape (.arr vs) w ↔ ∃ ws, w = .arr ws ∧ ∀ v ∈ vs.head?, ∀ u ∈ ws, HasShape v u := by
  constructor
  · intro h
    cases h with
    | scalar hv _ => contradiction
    | array elements => exact ⟨_, rfl, elements⟩
  · rintro ⟨ws, rfl, elements⟩
    exact .array elements

/-- A sample that has its own shape is uniform. -/
theorem HasShape.isUniform (h : HasShape v v) : v.IsUniform := by
  cases h with
  | scalar hv _ => cases v <;> trivial
  | object keys _ => exact fun hempty => ((keys "").1 hempty).2 rfl
  | array elements => exact elements

/-- All that is reached in a sample with its own shape has its own shape. -/
theorem HasShape.of_reaches (h : HasShape v v) {u : Json} (hu : Reaches v u) : HasShape u u := by
  induction hu with
  | refl => exact h
  | value _ _ hget ih =>
    obtain ⟨_, ⟨⟩, -, values⟩ := hasShape_obj.1 ih
    exact values _ _ _ hget hget
  | first _ ih =>
    obtain ⟨_, ⟨⟩, elements⟩ := hasShape_arr.1 ih
    exact elements _ rfl _ List.mem_cons_self

theorem Reaches.trans {u : Json} (h : Reaches v w) (hu : Reaches w u) : Reaches v u := by
  induction hu with
  | refl => exact h
  | value _ hkey hget ih => exact ih.value hkey hget
  | first _ ih => exact ih.first

/-- A sample has its own shape exactly if all that its schema is made from is uniform. -/
theorem hasShape_self_iff (v : Json) : HasShape v v ↔ ∀ u, Reaches v u → u.IsUniform := by
  refine ⟨fun h u hu => (h.of_reaches hu).isUniform, fun h => ?_⟩
  induction v using Json.induct with
  | scalar v hv => cases v <;> first | exact .scalar rfl rfl | exact hv.elim
  | arr xs ih => exact .array (h _ .refl)
  | obj ms ih =>
    have hempty : "" ∉ Members.keys ms := h _ .refl
    refine .object (fun key => ⟨fun hkey => ⟨hkey, ne_of_mem_of_not_mem hkey hempty⟩, And.left⟩) ?_
    intro key u u' hu hu'
    obtain rfl := Option.some.inj (hu.symm.trans hu')
    have hkey : key ≠ "" := ne_of_mem_of_not_mem (Members.mem_keys_iff.2 ⟨u, hu⟩) hempty
    exact ih _ (Members.mem_of_get? hu) fun t ht => h t ((Reaches.refl.value hkey hu).trans ht)

/-! ### Types -/

theorem hasType_scalar {t : ScalarType} : v.HasType (.str t.name) ↔ v.scalarType? = some t := by
  cases v <;> cases t <;> simp [HasType, types, scalarType?, ScalarType.name] <;> split <;> simp

theorem hasType_object : v.HasType (.str "object") ↔ ∃ ms, v = .obj ms := by
  cases v <;> simp [HasType, types]
  split <;> simp

theorem hasType_array : v.HasType (.str "array") ↔ ∃ xs, v = .arr xs := by
  cases v <;> simp [HasType, types]
  split <;> simp

end Json

namespace Schema
open Json

variable {w : Json}

/-! ### What a schema admits once it is rendered -/

theorem validates_scalar {t : ScalarType} : Validates (scalar t).toJson w ↔ w.scalarType? = some t := by
  rw [← hasType_scalar]
  constructor
  · rintro (_ | ⟨type, -, -, -, -⟩)
    exact type _ rfl
  · intro htype
    refine .keywords (fun t ht => ?_) ?_ ?_ ?_ ?_
    · cases ht
      exact htype
    all_goals intros; contradiction

theorem validates_any : Validates any.toJson w := by
  refine .keywords ?_ ?_ ?_ ?_ ?_ <;> intros <;> contradiction

theorem validates_array {items : Schema} : Validates (array items).toJson w ↔
    ∃ ws, w = .arr ws ∧ ∀ u ∈ ws, Validates items.toJson u := by
  constructor
  · rintro (_ | ⟨type, -, -, -, hitems⟩)
    obtain ⟨ws, rfl⟩ := hasType_array.1 (type _ rfl)
    refine ⟨ws, rfl, fun u hu => ?_⟩
    obtain ⟨i, hi⟩ := List.mem_iff_getElem?.1 hu
    exact hitems _ i u rfl hi
  · rintro ⟨ws, rfl, hws⟩
    refine .keywords (fun t ht => ?_) ?_ ?_ ?_ fun s i u hs hu => ?_
    · cases ht
      exact hasType_array.2 ⟨ws, rfl⟩
    · intros; contradiction
    · intros; contradiction
    · intros; contradiction
    · cases hs
      exact hws u (List.mem_of_getElem? hu)

theorem keys_propertiesJson (ps : List (String × Schema)) :
    Members.keys (propertiesJson ps) = ps.map (·.1) := by
  induction ps with
  | nil => rfl
  | cons p ps ih => exact congrArg (p.1 :: ·) ih

/-- A closed object has all the keys that are required and no others. -/
theorem validates_closed {ps : List (String × Schema)} : Validates (closed ps).toJson w ↔
    ∃ ns, w = .obj ns ∧ (∀ key, key ∈ Members.keys ns ↔ key ∈ Members.keys (propertiesJson ps)) ∧
      ∀ key s u, Members.get? key (propertiesJson ps) = some s → Members.get? key ns = some u →
        Validates s u := by
  have hdeclared : declared [("type", .str "object"), ("properties", .obj (propertiesJson ps)),
      ("required", .arr (ps.map fun p => .str p.1)), ("additionalProperties", .bool false)] =
    propertiesJson ps := rfl
  have hrequired (key : String) : Json.str key ∈ ps.map (fun p => Json.str p.1) ↔
      key ∈ Members.keys (propertiesJson ps) := by simp [keys_propertiesJson]
  constructor
  · rintro (_ | ⟨type, properties, required, additional, -⟩)
    obtain ⟨ns, rfl⟩ := hasType_object.1 (type _ rfl)
    refine ⟨ns, rfl, fun key => ⟨fun hkey => ?_, fun hkey => ?_⟩, properties⟩
    · -- a key that is not listed is left to the schema that admits nothing
      obtain ⟨u, hu⟩ := Members.mem_keys_iff.1 hkey
      refine Members.mem_keys_iff.2 (Option.ne_none_iff_exists'.1 fun hnone => ?_)
      cases additional (.bool false) key u rfl hnone hu
    · exact required _ key ns rfl ((hrequired key).2 hkey) rfl
  · rintro ⟨ns, rfl, hkeys, hvalues⟩
    refine .keywords (fun t ht => ?_) hvalues (fun ks key ms hks hkey hms => ?_) (fun s key u _ hnone hu => ?_) ?_
    · cases ht
      exact hasType_object.2 ⟨ns, rfl⟩
    · cases hks
      cases hms
      exact (hkeys key).2 ((hrequired key).1 hkey)
    · obtain ⟨s, hs⟩ := Members.mem_keys_iff.1 ((hkeys key).1 (Members.mem_keys_iff.2 ⟨u, hu⟩))
      rw [hdeclared, hs] at hnone
      contradiction
    · intros; contradiction

/-! ### Schemas of samples -/

theorem of_of_scalarType? {v : Json} {t : ScalarType} (h : v.scalarType? = some t) : of v = scalar t := by
  cases v <;> cases h <;> rfl

/-- What is rendered for a key is made from its value in the sample; nothing is rendered for the empty key. -/
theorem get?_propertiesJson (key : String) (ms : Members) :
    Members.get? key (propertiesJson (ofMembers ms)) =
      if key = "" then none else (Members.get? key ms).map fun v => (of v).toJson := by
  induction ms with
  | nil => simp [ofMembers, propertiesJson]
  | cons m ms ih =>
    obtain ⟨k, v⟩ := m
    by_cases hk : k = ""
    · rw [ofMembers, if_pos hk, ih]
      by_cases hkey : key = ""
      · rw [if_pos hkey, if_pos hkey]
      · have hne : k ≠ key := fun heq => hkey (heq ▸ hk)
        rw [Members.get?, if_neg hne]
    · rw [ofMembers, if_neg hk, propertiesJson, Members.get?, Members.get?, ih]
      by_cases hkey : k = key
      · have hne : key ≠ "" := hkey ▸ hk
        simp [hkey, hne]
      · simp [hkey]

theorem mem_keys_propertiesJson (key : String) (ms : Members) :
    key ∈ Members.keys (propertiesJson (ofMembers ms)) ↔ key ∈ Members.keys ms ∧ key ≠ "" := by
  rw [Members.mem_keys_iff, Members.mem_keys_iff, get?_propertiesJson]
  by_cases hkey : key = ""
  · simp [hkey]
  · cases Members.get? key ms <;> simp [hkey]

/-- The values that are valid against the rendered schema of a sample are those with its shape. -/
theorem validates_of (v w : Json) : Validates (of v).toJson w ↔ HasShape v w := by
  induction v using Json.induct generalizing w with
  | scalar v hv =>
    obtain ⟨t, ht⟩ : ∃ t, v.scalarType? = some t := by cases v <;> first | exact ⟨_, rfl⟩ | exact hv.elim
    rw [of_of_scalarType? ht, validates_scalar, hasShape_scalar ht]
  | arr vs ih =>
    rw [of, validates_array, hasShape_arr]
    cases vs with
    | nil => simp [ofFirst, validates_any]
    | cons v vs => simp [ofFirst, ih v List.mem_cons_self]
  | obj ms ih =>
    rw [of, validates_closed, hasShape_obj]
    refine exists_congr fun ns => and_congr_right fun _ => ?_
    simp only [mem_keys_propertiesJson]
    refine and_congr_right fun hns => ⟨fun h key v u hv hu => ?_, fun h key s u hs hu => ?_⟩
    · have hne : key ≠ "" := ((hns key).1 (Members.mem_keys_iff.2 ⟨u, hu⟩)).2
      have hs := get?_propertiesJson key ms
      rw [if_neg hne, hv] at hs
      exact (ih _ (Members.mem_of_get? hv) u).1 (h key _ u hs hu)
    · rw [get?_propertiesJson] at hs
      split at hs
      · contradiction
      · obtain ⟨v, hv, rfl⟩ := Option.map_eq_some_iff.1 hs
        exact (ih _ (Members.mem_of_get? hv) u).2 (h key v u hv hu)

/-- A value is valid against the rendered schema of a sample exactly if it has the shape of the sample. So
a sample is valid against its own schema exactly if of all that the schema is made from no object has an
empty key, and every array has only elements with the shape of its first one. -/
theorem validates_of_iff_shape (v w : Json) :
    (Validates (of v).toJson w ↔ HasShape v w) ∧
      (Validates (of v).toJson v ↔ ∀ u, Reaches v u → u.IsUniform) :=
  ⟨validates_of v w, (validates_of v v).trans (hasShape_self_iff v)⟩

end Schema
end MockRedirect
