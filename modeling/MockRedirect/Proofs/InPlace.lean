import MockRedirect.Body.InPlace
import MockRedirect.Proofs.Place
/-! Edits of a tree. A value is put exactly where there is a place for it, elements are added to and taken from the
array at a path and from nothing else, and an edit that fails leaves the tree as it was. -/
namespace MockRedirect

/-! ### All or nothing -/

namespace InPlace
open Json

variable {root v : Json} {path : FieldPath}

theorem run_look (root : Json) (path : FieldPath) (missing : InputError) :
    (look path missing).run root = ((root.at? path).elim (.error missing) .ok, root) := by
  have hget : (get : InPlace Json).run root = (.ok root, root) := rfl
  rw [look, ExceptT.run_bind]
  simp only [bind, StateT.bind, hget]
  cases root.at? path <;> rfl

theorem run_change_of_none (hat : root.at? path = none) (missing : InputError) (f : Json → Except InputError Json) :
    (change path missing f).run root = (.error missing, root) := by
  rw [change, ExceptT.run_bind]
  simp only [bind, StateT.bind, run_look, hat]
  rfl

theorem run_change_of_some (hat : root.at? path = some v) (missing : InputError) (f : Json → Except InputError Json) :
    (change path missing f).run root =
      settled root ((f v).map fun w => (modifyAt? (fun _ => some w) path root).getD root) := by
  rw [change, ExceptT.run_bind]
  simp only [bind, StateT.bind, run_look, hat]
  dsimp only [Option.elim]
  cases f v <;> rfl

/-- A value that is looked up, checked and written over is changed at its path, or not at all. -/
theorem run_change_orNoField (root : Json) (path : FieldPath) (text : String) (g : Json → Option Json) :
    (change path (.noField text) fun v => orNoField text (g v)).run root =
      settled root (orNoField text (modifyAt? g path root)) := by
  cases hat : root.at? path with
  | none =>
    rw [run_change_of_none hat, modifyAt?_eq_none fun u hu => by rw [hat] at hu; contradiction]
    rfl
  | some v =>
    rw [run_change_of_some hat]
    cases hg : g v with
    | none =>
      rw [modifyAt?_eq_none fun u hu => by rw [hat] at hu; cases hu; exact hg]
      rfl
    | some w =>
      obtain ⟨w', hw'⟩ := exists_modifyAt? hat hg
      have hconst : modifyAt? (fun _ => some w) path root = some w' := by
        rw [← hw']
        exact modifyAt?_congr hat hg.symm
      rw [hw']
      dsimp only [orNoField, Except.map]
      rw [hconst]
      rfl

theorem run_setField (root : Json) (path : FieldPath) (value : Json) :
    (setField path value).run root = settled root (root.setField path value) := by
  rw [setField, Json.setField]
  cases path.getLast? with
  | none => rfl
  | some s => exact run_change_orNoField ..

theorem run_pushItem (root : Json) (path : FieldPath) (structure? : Option Json) :
    (pushItem path structure?).run root = settled root (root.pushItem path structure?) := by
  rw [Json.pushItem, ← run_change_orNoField, pushItem]
  refine congrArg (fun f => (change path _ f).run root) (funext fun v => ?_)
  cases v <;> rfl

theorem run_removeItem (root : Json) (path : FieldPath) (i : Nat) :
    (removeItem path i).run root = settled root (root.removeItem path i) := by
  rw [removeItem, Json.removeItem]
  cases hat : root.at? path with
  | none => exact run_change_of_none hat ..
  | some v =>
    rw [run_change_of_some hat]
    cases v with
    | arr xs =>
      obtain ⟨w, hw⟩ := exists_modifyAt? (f := fun _ => some (.arr (xs.eraseIdx i))) hat rfl
      dsimp only
      by_cases hi : i < xs.length
      · simp only [if_pos hi, Except.map, hw]
        rfl
      · simp only [if_neg hi]
        rfl
    | _ => rfl

end InPlace

namespace Json

variable {root w value : Json} {path q : FieldPath} {xs : List Json} {i : Nat}

/-! ### Values -/

/-- There is a place for a value at a path: any key of an object, or an element of an array. -/
def HasPlace (root : Json) (path : FieldPath) : Prop :=
  ∃ front, (∃ name ms, path = front ++ [.key name] ∧ root.at? front = some (.obj ms)) ∨
    ∃ i xs, path = front ++ [.index i] ∧ root.at? front = some (.arr xs) ∧ i < xs.length

theorem setField_eq_ok : root.setField path value = .ok w ↔
    ∃ front s, path = front ++ [s] ∧ modifyAt? (putChild? s value) front root = some w := by
  rw [Json.setField, orNoField_eq_ok]
  constructor
  · intro h
    split at h
    · next s hs => exact ⟨path.dropLast, s, (List.dropLast_append_getLast? s hs).symm, h⟩
    · contradiction
  · rintro ⟨front, s, rfl, h⟩
    rw [List.getLast?_concat, List.dropLast_concat]
    exact h

theorem setField_cases (h : root.setField path value = .ok w) : ∃ front s u u', path = front ++ [s] ∧
    root.at? front = some u ∧ putChild? s value u = some u' ∧ w.at? front = some u' ∧ SameBut front root w := by
  obtain ⟨front, s, rfl, hmod⟩ := setField_eq_ok.1 h
  obtain ⟨u, u', hu, hput, hu'⟩ := at?_of_modifyAt? hmod
  exact ⟨front, s, u, u', rfl, hu, hput, hu', sameBut_of_modifyAt? hmod⟩

theorem exists_setField_iff (root : Json) (path : FieldPath) (value : Json) :
    (∃ w, root.setField path value = .ok w) ↔ root.HasPlace path := by
  constructor
  · rintro ⟨w, h⟩
    obtain ⟨front, s, u, u', rfl, hu, hput, -⟩ := setField_cases h
    obtain ⟨name, ms, rfl, rfl, -⟩ | ⟨i, xs, rfl, rfl, hi, -⟩ := putChild?_eq_some.1 hput
    · exact ⟨front, Or.inl ⟨name, ms, rfl, hu⟩⟩
    · exact ⟨front, Or.inr ⟨i, xs, rfl, hu, hi⟩⟩
  · rintro ⟨front, ⟨name, ms, rfl, hat⟩ | ⟨i, xs, rfl, hat, hi⟩⟩
    · obtain ⟨w, hw⟩ := exists_modifyAt? (f := putChild? (.key name) value) hat rfl
      exact ⟨w, setField_eq_ok.2 ⟨front, _, rfl, hw⟩⟩
    · obtain ⟨w, hw⟩ := exists_modifyAt? (f := putChild? (.index i) value) hat (if_pos hi)
      exact ⟨w, setField_eq_ok.2 ⟨front, _, rfl, hw⟩⟩

theorem at?_setField (h : root.setField path value = .ok w) : w.at? path = some value := by
  obtain ⟨front, s, u, u', rfl, -, hput, hu', -⟩ := setField_cases h
  rw [at?_concat, hu', Option.bind_some, child?_putChild? hput]

/-- Only what lies on the way to the path or below it can be different. -/
theorem at?_setField_outside (h : root.setField path value = .ok w) (hpath : ¬path <+: q) :
    w.at? q = root.at? q ∨ q <+: path := by
  obtain ⟨front, s, u, u', rfl, hu, hput, hu', hsame⟩ := setField_cases h
  by_cases hfront : front <+: q
  · obtain ⟨r, rfl⟩ := hfront
    cases r with
    | nil => exact Or.inr ⟨[s], by rw [List.append_nil]⟩
    | cons t r =>
      have hne : s ≠ t := by
        rintro rfl
        exact hpath ⟨r, by simp⟩
      left
      rw [at?_append, at?_append, hu, hu', Option.bind_some, Option.bind_some, at?, at?,
        child?_putChild?_of_ne hput hne]
  · by_cases hq : q <+: front
    · exact Or.inr (hq.trans (List.prefix_append ..))
    · exact Or.inl (hsame.aside q hq hfront)

/-- Key orders and numbers of elements stay, except that a new key comes last in its object. -/
theorem outline_setField (h : root.setField path value = .ok w) (hpath : ¬path <+: q) :
    (w.at? q).map outline = (root.at? q).map outline ∨
      ∃ name ms, path = q ++ [.key name] ∧ root.at? q = some (.obj ms) ∧ name ∉ Members.keys ms ∧
        (w.at? q).map outline = some (.members (Members.keys ms ++ [name])) := by
  obtain hat | hq := at?_setField_outside h hpath
  · exact Or.inl (congrArg _ hat)
  · obtain ⟨front, s, u, u', rfl, hu, hput, hu', hsame⟩ := setField_cases h
    obtain rfl | hq := List.prefix_concat_iff.1 hq
    · exact absurd (List.prefix_refl _) hpath
    · by_cases hfront : front <+: q
      · obtain rfl : q = front := hq.eq_of_length_le hfront.length_le
        rw [hu, hu']
        obtain heq | ⟨name, ms, rfl, rfl, hnew, hout⟩ := outline_putChild?_cases hput
        · exact Or.inl (congrArg some heq)
        · exact Or.inr ⟨name, ms, rfl, rfl, hnew, congrArg some hout⟩
      · exact Or.inl (hsame.outline q hfront)

theorem setField_setField (h : root.setField path value = .ok w) (other : Json) :
    w.setField path other = root.setField path other := by
  obtain ⟨front, s, rfl, hmod⟩ := setField_eq_ok.1 h
  obtain ⟨u, u', hu, hput, -⟩ := at?_of_modifyAt? hmod
  have hboth : modifyAt? (putChild? s other) front w = modifyAt? (putChild? s other) front root := by
    rw [modifyAt?_modifyAt? hmod]
    refine modifyAt?_congr hu ?_
    rw [hput, Option.bind_some, putChild?_putChild? hput]
  rw [Json.setField, Json.setField, List.getLast?_concat, List.dropLast_concat]
  exact congrArg _ hboth

theorem setField_self (hne : path ≠ []) (h : root.at? path = some value) :
    root.setField path value = .ok root := by
  obtain ⟨front, s, rfl⟩ := List.eq_nil_or_concat' path |>.resolve_left hne
  rw [at?_concat] at h
  obtain ⟨u, hu, hchild⟩ := Option.bind_eq_some_iff.1 h
  exact setField_eq_ok.2 ⟨front, s, rfl, modifyAt?_self hu (putChild?_of_child? hchild)⟩

/-- Where there is a value, putting one is a change of it. -/
theorem setField_of_at? {u : Json} (hne : path ≠ []) (hat : root.at? path = some u) :
    root.setField path value = .ok w ↔ modifyAt? (fun _ => some value) path root = some w := by
  obtain ⟨front, s, rfl⟩ := List.eq_nil_or_concat' path |>.resolve_left hne
  rw [at?_concat] at hat
  obtain ⟨v, hv, hchild⟩ := Option.bind_eq_some_iff.1 hat
  have hlast : modifyAt? (fun _ => some value) [s] v = putChild? s value v := by
    rw [modifyAt?_cons, hchild]
    rfl
  rw [Json.setField, orNoField_eq_ok, List.getLast?_concat, List.dropLast_concat, modifyAt?_append,
    modifyAt?_congr hv hlast]

theorem setField_eq_error (h : ¬root.HasPlace path) (value : Json) :
    root.setField path value = .error (.noField (FieldPath.text path)) := by
  rw [← exists_setField_iff root path value] at h
  rw [Json.setField] at h ⊢
  split at h
  · next s hs =>
    cases hmod : modifyAt? (putChild? s value) path.dropLast root with
    | none => rfl
    | some w => exact absurd ⟨w, by rw [hmod]; rfl⟩ h
  · rfl

/-- A value is put at a path if and only if there is a place for it. It is found there, all that lies beside the path
is as before, and the trees differ in no key order and no number of elements outside the value, except for a new key at
the end of its object. The last of two values at a path counts, and the value that is there changes nothing. In place,
an edit that fails leaves the tree as it was. -/
theorem setField_replaces (root : Json) (path : FieldPath) (value : Json) :
    ((∃ w, root.setField path value = .ok w) ↔ root.HasPlace path) ∧
      (∀ w, root.setField path value = .ok w →
        w.at? path = some value ∧
          (∀ q, ¬q <+: path → ¬path <+: q → w.at? q = root.at? q) ∧
          (∀ q, ¬path <+: q → (w.at? q).map outline = (root.at? q).map outline ∨
            ∃ name ms, path = q ++ [.key name] ∧ root.at? q = some (.obj ms) ∧ name ∉ Members.keys ms ∧
              (w.at? q).map outline = some (.members (Members.keys ms ++ [name]))) ∧
          (∀ other, w.setField path other = root.setField path other) ∧
          (InPlace.setField path value).run root = (.ok (), w)) ∧
      (path ≠ [] → root.at? path = some value → root.setField path value = .ok root) ∧
      (¬root.HasPlace path →
        (InPlace.setField path value).run root = (.error (.noField (FieldPath.text path)), root)) := by
  refine ⟨exists_setField_iff root path value, fun w h => ?_, setField_self, fun hno => ?_⟩
  · refine ⟨at?_setField h, fun q hq hpath => ?_, fun q => outline_setField h, setField_setField h, ?_⟩
    · exact (at?_setField_outside h hpath).resolve_right hq
    · rw [InPlace.run_setField, h]
      rfl
  · rw [InPlace.run_setField, setField_eq_error hno]
    rfl

/-! ### Elements -/

/-- What a new element of the array `xs` at a path is a copy of: the first element, else the first element of the
array at the path in a structure, where every index on the way is zero, else the empty object. -/
structure IsNewItem (xs : List Json) (path : FieldPath) (structure? : Option Json) (item : Json) : Prop where
  first : ∀ x ∈ xs.head?, item = x
  sample : xs = [] → ∀ s ∈ structure?, ∀ u ∈ s.at? (FieldPath.firstElements path ++ [.index 0]), item = u
  blank : xs = [] → (∀ s ∈ structure?, s.at? (FieldPath.firstElements path ++ [.index 0]) = none) → item = .obj []

theorem isNewItem_newItem (xs : List Json) (path : FieldPath) (structure? : Option Json) :
    IsNewItem xs path structure? (newItem xs path structure?) := by
  cases xs with
  | cons x xs => exact ⟨fun _ hx => Option.some.inj hx, nofun, nofun⟩
  | nil =>
    refine ⟨nofun, ?_, ?_⟩
    · rintro - s ⟨⟩ u hu
      rw [newItem, Option.bind_some, Option.mem_def.1 hu, Option.getD_some]
    · intro _ hnone
      cases structure? with
      | none => rfl
      | some s => rw [newItem, Option.bind_some, hnone s rfl, Option.getD_none]

theorem pushItem_eq_ok {structure? : Option Json} : root.pushItem path structure? = .ok w ↔
    ∃ xs, root.at? path = some (.arr xs) ∧
      modifyAt? (fun _ => some (.arr (xs ++ [newItem xs path structure?]))) path root = some w := by
  rw [Json.pushItem, orNoField_eq_ok]
  constructor
  · intro h
    obtain ⟨u, u', hu, hf, -⟩ := at?_of_modifyAt? h
    cases u with
    | arr xs =>
      refine ⟨xs, hu, ?_⟩
      rw [← h]
      exact modifyAt?_congr hu rfl
    | _ => contradiction
  · rintro ⟨xs, hu, h⟩
    rw [← h]
    exact modifyAt?_congr hu rfl

theorem removeItem_eq_ok : root.removeItem path i = .ok w ↔
    ∃ xs, root.at? path = some (.arr xs) ∧ i < xs.length ∧
      modifyAt? (fun _ => some (.arr (xs.eraseIdx i))) path root = some w := by
  rw [Json.removeItem]
  constructor
  · intro h
    split at h
    · next xs hat =>
      split at h
      · next hi => exact ⟨xs, hat, hi, orNoField_eq_ok.1 h⟩
      · contradiction
    · contradiction
  · rintro ⟨xs, hat, hi, h⟩
    rw [hat]
    dsimp only
    rw [if_pos hi]
    exact orNoField_eq_ok.2 h

theorem exists_pushItem_iff (root : Json) (path : FieldPath) (structure? : Option Json) :
    (∃ w, root.pushItem path structure? = .ok w) ↔ ∃ xs, root.at? path = some (.arr xs) := by
  constructor
  · rintro ⟨w, h⟩
    obtain ⟨xs, hat, -⟩ := pushItem_eq_ok.1 h
    exact ⟨xs, hat⟩
  · rintro ⟨xs, hat⟩
    obtain ⟨w, hw⟩ := exists_modifyAt? (f := fun _ => some (.arr (xs ++ [newItem xs path structure?]))) hat rfl
    exact ⟨w, pushItem_eq_ok.2 ⟨xs, hat, hw⟩⟩

theorem exists_removeItem_iff (root : Json) (path : FieldPath) (i : Nat) :
    (∃ w, root.removeItem path i = .ok w) ↔ ∃ xs, root.at? path = some (.arr xs) ∧ i < xs.length := by
  constructor
  · rintro ⟨w, h⟩
    obtain ⟨xs, hat, hi, -⟩ := removeItem_eq_ok.1 h
    exact ⟨xs, hat, hi⟩
  · rintro ⟨xs, hat, hi⟩
    obtain ⟨w, hw⟩ := exists_modifyAt? (f := fun _ => some (.arr (xs.eraseIdx i))) hat rfl
    exact ⟨w, removeItem_eq_ok.2 ⟨xs, hat, hi, hw⟩⟩

/-- What was added at the end of an array can be taken away again. -/
theorem removeItem_pushItem {structure? : Option Json} (hat : root.at? path = some (.arr xs))
    (h : root.pushItem path structure? = .ok w) : w.removeItem path xs.length = .ok root := by
  obtain ⟨ys, hys, hmod⟩ := pushItem_eq_ok.1 h
  cases hat.symm.trans hys
  obtain ⟨-, -, -, ⟨⟩, hw⟩ := at?_of_modifyAt? hmod
  refine removeItem_eq_ok.2 ⟨_, hw, by simp, ?_⟩
  rw [modifyAt?_modifyAt? hmod]
  refine modifyAt?_self hat ?_
  simp [List.eraseIdx_append_of_length_le]

theorem pushItem_eq_error (h : ¬∃ xs, root.at? path = some (.arr xs)) (structure? : Option Json) :
    root.pushItem path structure? = .error (.noField (FieldPath.text path)) := by
  rw [Json.pushItem, modifyAt?_eq_none]
  · rfl
  · intro u hu
    cases u with
    | arr xs => exact absurd ⟨xs, hu⟩ h
    | _ => rfl

theorem removeItem_eq_error (h : ¬∃ xs, root.at? path = some (.arr xs)) (i : Nat) :
    root.removeItem path i = .error (.noField (FieldPath.text path)) := by
  rw [Json.removeItem]
  split
  · next xs hat => exact absurd ⟨xs, hat⟩ h
  · rfl

theorem removeItem_of_length_le (hat : root.at? path = some (.arr xs)) (hi : xs.length ≤ i) :
    root.removeItem path i = .error (.noField (FieldPath.text (path ++ [.index i]))) := by
  rw [Json.removeItem, hat]
  exact if_neg (Nat.not_lt.2 hi)

/-- Elements are added to arrays, and those that exist are taken from them. A new element comes last and is a copy as
described above; of the old ones the `i`-th goes and the others stay in their order; outside the array nothing is
different. Taking a new element away again gives the tree as it was before. In place, an edit that fails leaves the
tree as it was. -/
theorem items_edited (root : Json) (path : FieldPath) (structure? : Option Json) (i : Nat) :
    ((∃ w, root.pushItem path structure? = .ok w) ↔ ∃ xs, root.at? path = some (.arr xs)) ∧
      ((∃ w, root.removeItem path i = .ok w) ↔ ∃ xs, root.at? path = some (.arr xs) ∧ i < xs.length) ∧
      (∀ xs, root.at? path = some (.arr xs) →
        (∀ w, root.pushItem path structure? = .ok w →
          (∃ item, IsNewItem xs path structure? item ∧ w.at? path = some (.arr (xs ++ [item]))) ∧
            SameBut path root w ∧ w.removeItem path xs.length = .ok root ∧
            (InPlace.pushItem path structure?).run root = (.ok (), w)) ∧
        (∀ w, root.removeItem path i = .ok w →
          w.at? path = some (.arr (xs.take i ++ xs.drop (i + 1))) ∧ SameBut path root w ∧
            (InPlace.removeItem path i).run root = (.ok (), w)) ∧
        (xs.length ≤ i → (InPlace.removeItem path i).run root =
          (.error (.noField (FieldPath.text (path ++ [.index i]))), root))) ∧
      ((¬∃ xs, root.at? path = some (.arr xs)) →
        (InPlace.pushItem path structure?).run root = (.error (.noField (FieldPath.text path)), root) ∧
          (InPlace.removeItem path i).run root = (.error (.noField (FieldPath.text path)), root)) := by
  refine ⟨exists_pushItem_iff .., exists_removeItem_iff ..,
    fun xs hat => ⟨fun w h => ?_, fun w h => ?_, fun hi => ?_⟩, fun hno => ⟨?_, ?_⟩⟩
  · obtain ⟨ys, hys, hmod⟩ := pushItem_eq_ok.1 h
    cases hat.symm.trans hys
    obtain ⟨-, -, -, ⟨⟩, hw⟩ := at?_of_modifyAt? hmod
    refine ⟨⟨_, isNewItem_newItem xs path structure?, hw⟩, sameBut_of_modifyAt? hmod,
      removeItem_pushItem hat h, ?_⟩
    rw [InPlace.run_pushItem, h]
    rfl
  · obtain ⟨ys, hys, -, hmod⟩ := removeItem_eq_ok.1 h
    cases hat.symm.trans hys
    obtain ⟨-, -, -, ⟨⟩, hw⟩ := at?_of_modifyAt? hmod
    rw [List.eraseIdx_eq_take_drop_succ] at hw
    refine ⟨hw, sameBut_of_modifyAt? hmod, ?_⟩
    rw [InPlace.run_removeItem, h]
    rfl
  · rw [InPlace.run_removeItem, removeItem_of_length_le hat hi]
    rfl
  · rw [InPlace.run_pushItem, pushItem_eq_error hno]
    rfl
  · rw [InPlace.run_removeItem, removeItem_eq_error hno]
    rfl

end Json
end MockRedirect
