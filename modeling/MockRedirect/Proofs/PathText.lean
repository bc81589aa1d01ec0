import MockRedirect.Proofs.Leaves
import MockRedirect.Proofs.Number
import MockRedirect.Proofs.Pieces
/-! Paths as they are typed and shown. The notation has no escapes, so that a key with a dot or an opening bracket in it
cannot be typed; every other path is read back from what is shown for it. -/
namespace MockRedirect
open Text

variable {n : Nat} {is : List Nat} {ds t name : List Char}

/-! ### Indices -/

theorem decimal_natDigits (n : Nat) : decimal (natDigits n) = n := by
  have hfold (ds : List Char) (n : Nat) :
      ds.foldl (fun n c => n * 10 + (c.toNat - '0'.toNat)) n = Nat.ofDigitChars 10 ds n := by
    induction ds generalizing n with
    | nil => rfl
    | cons d ds ih => rw [List.foldl_cons, ih, Nat.ofDigitChars_cons, Nat.mul_comm]
  exact (hfold _ 0).trans Nat.ofDigitChars_ten_toDigits

theorem notMem_natDigits {c : Char} (hc : isAsciiDigit c = false) (n : Nat) : c ∉ natDigits n := by
  intro h
  rw [Json.isAsciiDigit_of_mem_natDigits h] at hc
  contradiction

theorem readInt?_natDigits (n : Nat) : readInt? (natDigits n) = some (n : Int) := by
  have hvalue : natDigits n ≠ [] ∧ (natDigits n).all isAsciiDigit = true :=
    ⟨Nat.toDigits_ne_nil, List.all_eq_true.2 fun c hc => Json.isAsciiDigit_of_mem_natDigits hc⟩
  unfold readInt?
  split
  · next heq => exact absurd (heq ▸ List.mem_cons_self) (notMem_natDigits (c := '-') (by decide) n)
  · next heq => exact absurd (heq ▸ List.mem_cons_self) (notMem_natDigits (c := '+') (by decide) n)
  · simp only [if_pos hvalue, decimal_natDigits]
    rfl

theorem readNat64?_natDigits (h : n < Nat.pow 2 64) : readNat64? (natDigits n) = some n := by
  unfold readNat64?
  split
  · next heq => exact absurd (heq ▸ List.mem_cons_self) (notMem_natDigits (c := '-') (by decide) n)
  · rw [readInt?_natDigits, Option.bind_some, if_pos (by exact_mod_cast h), Int.toNat_natCast]

theorem lt_of_readNat64? (h : readNat64? ds = some n) : n < Nat.pow 2 64 := by
  unfold readNat64? at h
  split at h
  · contradiction
  · obtain ⟨k, -, hk⟩ := Option.bind_eq_some_iff.1 h
    split at hk
    · next hlt =>
      obtain rfl := Option.some.inj hk
      have hpos : 0 < Nat.pow 2 64 := by decide
      omega
    · contradiction

/-- What can be typed for a segment: a key without the characters that end one, an index of 64 bits. -/
def Segment.IsPlain : Segment → Prop
  | .key name => name ≠ "" ∧ '.' ∉ name.toList ∧ '[' ∉ name.toList
  | .index i => i < Nat.pow 2 64

namespace FieldPath

variable {p ss : FieldPath} {text : String} {first : Bool}

def IsPlain (p : FieldPath) : Prop := ∀ s ∈ p, s.IsPlain

/-- The text of indices. -/
def brackets (is : List Nat) : List Char := is.flatMap fun i => '[' :: natDigits i ++ [']']

/-- The index in a text such as `[2`, which is cut off at the closing bracket. -/
def index? : List Char → Option Segment
  | '[' :: digits => (readNat64? digits).map .index
  | _ => none

theorem indices?_eq (h : t ≠ []) : indices? t =
    if (split ']' t).getLast? = some [] then (split ']' t).dropLast.mapM index? else none := if_neg h

theorem brackets_cons (i : Nat) (is : List Nat) : brackets (i :: is) = ('[' :: natDigits i) ++ ']' :: brackets is := by
  simp [brackets]

theorem split_brackets (is : List Nat) : split ']' (brackets is) = (is.map fun i => '[' :: natDigits i) ++ [[]] := by
  induction is with
  | nil => rfl
  | cons i is ih =>
    have hclose : ']' ∉ '[' :: natDigits i := by
      rw [List.mem_cons, not_or]
      exact ⟨by decide, notMem_natDigits (by decide) i⟩
    rw [brackets_cons, split_append_cons hclose, ih]
    rfl

theorem indices?_brackets (h : ∀ i ∈ is, i < Nat.pow 2 64) : indices? (brackets is) = some (is.map .index) := by
  cases is with
  | nil => rfl
  | cons i is =>
    rw [indices?_eq (by simp [brackets_cons]), split_brackets, List.getLast?_concat, if_pos rfl, List.dropLast_concat,
      mapM_eq_some, List.map_map, List.map_map]
    refine List.map_congr_left fun j hj => ?_
    rw [Function.comp_apply, index?, readNat64?_natDigits (h j hj)]
    rfl

theorem isPlain_of_index? {s : Segment} (h : index? t = some s) : s.IsPlain := by
  unfold index? at h
  split at h
  · obtain ⟨i, hi, rfl⟩ := Option.map_eq_some_iff.1 h
    exact lt_of_readNat64? hi
  · contradiction

theorem isPlain_of_indices? (h : indices? t = some ss) : IsPlain ss := by
  by_cases ht : t = []
  · cases (if_pos ht).symm.trans h
    exact nofun
  · rw [indices?_eq ht] at h
    split at h
    · intro s hs
      have hmem : some s ∈ (split ']' t).dropLast.map index? := mapM_eq_some.1 h ▸ List.mem_map_of_mem hs
      obtain ⟨piece, -, hpiece⟩ := List.mem_map.1 hmem
      exact isPlain_of_index? hpiece
    · contradiction

/-! ### Parts between dots -/

theorem dot_notMem_index (first : Bool) (i : Nat) : '.' ∉ segmentText first (.index i) := by
  rw [segmentText, List.cons_append, List.mem_cons, List.mem_append, List.mem_singleton]
  rintro (h | h | h)
  · contradiction
  · exact notMem_natDigits (by decide) i h
  · contradiction

/-- A name reaches up to the first opening bracket. -/
theorem span_name (hname : '[' ∉ name) (ht : ∀ c ∈ t.head?, c = '[') :
    (name ++ t).takeWhile (· ≠ '[') = name ∧ (name ++ t).dropWhile (· ≠ '[') = t := by
  have hall : ∀ c ∈ name, (decide (c ≠ '[')) = true := fun c hc => decide_eq_true (ne_of_mem_of_not_mem hc hname)
  rw [List.takeWhile_append_of_pos hall, List.dropWhile_append_of_pos hall]
  cases t with
  | nil => simp
  | cons c t => simp [ht c rfl]

theorem span_brackets (hname : '[' ∉ name) (is : List Nat) :
    (name ++ brackets is).takeWhile (· ≠ '[') = name ∧ (name ++ brackets is).dropWhile (· ≠ '[') = brackets is := by
  refine span_name hname ?_
  cases is with
  | nil => exact nofun
  | cons i is =>
    rw [brackets_cons]
    rintro _ ⟨⟩
    rfl

theorem part?_key {name : String} (hname : (Segment.key name).IsPlain) (h : ∀ i ∈ is, i < Nat.pow 2 64) :
    part? first (name.toList ++ brackets is) = some (.key name :: is.map .index) := by
  obtain ⟨htake, hdrop⟩ := span_brackets hname.2.2 is
  rw [part?, htake, hdrop, if_neg (by simpa using hname.1), indices?_brackets h, String.ofList_toList]
  rfl

/-- Only the first part can do without a key. -/
theorem part?_brackets (hne : is ≠ []) (h : ∀ i ∈ is, i < Nat.pow 2 64) :
    part? true (brackets is) = some (is.map .index) := by
  obtain ⟨htake, hdrop⟩ := span_brackets List.not_mem_nil is
  rw [List.nil_append] at htake hdrop
  obtain ⟨i, is, rfl⟩ := List.exists_cons_of_ne_nil hne
  rw [part?, htake, hdrop, if_pos rfl, if_pos (by simp [brackets_cons]), indices?_brackets h]

theorem isPlain_of_part? (hdot : '.' ∉ t) (h : part? first t = some ss) : IsPlain ss := by
  rw [part?] at h
  split at h
  · split at h
    · exact isPlain_of_indices? h
    · contradiction
  · next hname =>
    obtain ⟨is, his, rfl⟩ := Option.map_eq_some_iff.1 h
    refine List.forall_mem_cons.2 ⟨⟨?_, ?_, ?_⟩, isPlain_of_indices? his⟩
    · simpa using hname
    · rw [String.toList_ofList]
      exact fun hc => hdot (List.takeWhile_subset _ hc)
    · rw [String.toList_ofList]
      intro hc
      simpa using List.mem_takeWhile_imp hc

theorem isPlain_of_parts? {ts : List (List Char)} (hdot : ∀ t ∈ ts, '.' ∉ t) (h : parts? first ts = some ss) :
    IsPlain ss := by
  induction ts generalizing first ss with
  | nil =>
    cases h
    exact nofun
  | cons t ts ih =>
    obtain ⟨segments, hsegments, h⟩ := Option.bind_eq_some_iff.1 h
    obtain ⟨rest, hrest, h⟩ := Option.bind_eq_some_iff.1 h
    cases h
    rw [List.forall_mem_cons] at hdot
    exact List.forall_mem_append.2 ⟨isPlain_of_part? hdot.1 hsegments, ih hdot.2 hrest⟩

/-- Whatever is typed, it has no segment that cannot be typed. -/
theorem isPlain_of_parse (h : parse text = .ok p) : IsPlain p := by
  rw [parse] at h
  split at h
  · next hparts =>
    cases h
    exact isPlain_of_parts? (fun t ht hdot => (mem_of_mem_split ht hdot).2 rfl) hparts
  · contradiction

/-! ### Paths -/

/-- Segments are indices and, from the first dot on, what is read as the segments behind them. -/
theorem split_segments (h : IsPlain ss) : ∃ is rest qs, ss = is.map .index ++ rest ∧ (∀ i ∈ is, i < Nat.pow 2 64) ∧
    split '.' (ss.flatMap (segmentText false)) = brackets is :: qs ∧ parts? false qs = some rest := by
  induction ss with
  | nil => exact ⟨[], [], [], rfl, nofun, rfl, rfl⟩
  | cons s ss ih =>
    rw [IsPlain, List.forall_mem_cons] at h
    obtain ⟨is, rest, qs, rfl, his, hsplit, hparts⟩ := ih h.2
    rw [List.flatMap_cons]
    cases s with
    | index i =>
      refine ⟨i :: is, rest, qs, rfl, List.forall_mem_cons.2 ⟨h.1, his⟩, ?_, hparts⟩
      rw [split_append_left (dot_notMem_index false i) hsplit]
      rfl
    | key name =>
      refine ⟨[], .key name :: is.map .index ++ rest, (name.toList ++ brackets is) :: qs, rfl, nofun, ?_, ?_⟩
      · rw [segmentText, if_neg Bool.false_ne_true, List.cons_append, split, if_pos rfl, split_append_left h.1.2.1 hsplit]
        rfl
      · rw [parts?, part?_key h.1 his, hparts]
        rfl

/-- A path without a segment that cannot be typed is read back from its text. -/
theorem parse_text (hne : p ≠ []) (h : IsPlain p) : parse (FieldPath.text p) = .ok p := by
  suffices parts? true (split '.' (render p)) = some p by
    rw [parse, FieldPath.text, String.toList_ofList, this]
  obtain ⟨s, ss, rfl⟩ := List.exists_cons_of_ne_nil hne
  rw [IsPlain, List.forall_mem_cons] at h
  obtain ⟨is, rest, qs, rfl, his, hsplit, hparts⟩ := split_segments h.2
  rw [render]
  cases s with
  | index i =>
    have hpart : part? true (segmentText true (.index i) ++ brackets is) = some ((i :: is).map .index) :=
      part?_brackets (List.cons_ne_nil i is) (List.forall_mem_cons.2 ⟨h.1, his⟩)
    rw [split_append_left (dot_notMem_index true i) hsplit, parts?, hpart, hparts]
    rfl
  | key name =>
    rw [segmentText, if_pos rfl, split_append_left h.1.2.1 hsplit, parts?, part?_key h.1 his, hparts]
    rfl

end FieldPath

namespace Json

variable {root v : Json} {p : FieldPath} {d : Draft}

/-- The text shown for a leaf leads to it: it is read as a path at which the value of the leaf is found, and at which
any value can be put with the effect that the entry of the leaf, and no other, is a different one. -/
def Addressed (root : Json) (p : FieldPath) (v : Json) : Prop :=
  ∃ q, FieldPath.parse (FieldPath.text p) = .ok q ∧ root.at? q = some v ∧
    ∀ u, ∃ w, root.setField q u = .ok w ∧ w.leaves [] = (root.leaves []).flatMap (relisted p u)

/-- Only a path that is read back from its text leads to its leaf. -/
theorem Addressed.parse_text (hv : root.Tidy fun _ => True) (hl : (p, v) ∈ root.leaves [])
    (h : root.Addressed p v) : FieldPath.parse (FieldPath.text p) = .ok p := by
  obtain ⟨q, hparse, hq, hset⟩ := h
  have hscalar : v.IsScalar := ((mem_leaves_iff hv).1 hl).2
  -- a scalar that is not there shows which entry is changed
  obtain ⟨u, hu, hne⟩ : ∃ u : Json, u.IsScalar ∧ u ≠ v := by
    by_cases hnull : v = .null
    · exact ⟨.bool true, trivial, by simp [hnull]⟩
    · exact ⟨.null, trivial, Ne.symm hnull⟩
  obtain ⟨w, hw, hleaves⟩ := hset u
  have hmem : (q, u) ∈ w.leaves [] :=
    (mem_leaves_iff (hv.setField (.scalar hu trivial) hw)).2 ⟨at?_setField hw, hu⟩
  rw [hleaves, flatMap_relisted hu] at hmem
  obtain ⟨l, hl, heq⟩ := List.mem_map.1 hmem
  split at heq
  · rw [hparse, (Prod.mk.inj heq).1]
  · subst heq
    exact absurd (Option.some.inj (((mem_leaves_iff hv).1 hl).1.symm.trans hq)) hne

theorem addressed_iff (hv : root.Tidy fun _ => True) (hs : ¬root.IsScalar) (hl : (p, v) ∈ root.leaves []) :
    root.Addressed p v ↔ p.IsPlain :=
  ⟨fun h => FieldPath.isPlain_of_parse (h.parse_text hv hl), fun h =>
    ⟨p, FieldPath.parse_text (ne_nil_of_mem_leaves hv hs hl) h, ((mem_leaves_iff hv).1 hl).1,
      setField_leaf hv hs hl⟩⟩

/-- In a draft, text that is typed for a leaf takes its place. -/
theorem exists_setField_text (hv : d.body.Tidy fun _ => True) (hs : ¬d.body.IsScalar) (hl : (p, v) ∈ d.body.leaves [])
    (hp : p.IsPlain) (raw : String) : ∃ d', d.setField (FieldPath.text p) raw = .ok d' ∧
      d'.body.leaves [] = (d.body.leaves []).map fun l => if l.1 = p then (p, coerce p raw v) else l := by
  obtain ⟨w, hw, hleaves⟩ := setField_leaf hv hs hl (coerce p raw v)
  refine ⟨{ d with body := w }, ?_, ?_⟩
  · rw [Draft.setField, FieldPath.parse_text (ne_nil_of_mem_leaves hv hs hl) hp]
    simp only [((mem_leaves_iff hv).1 hl).1, hw, bind, Except.bind]
  · rw [hleaves, flatMap_relisted (isScalar_coerce p raw v)]

/-- The text shown for a leaf leads to it if and only if no key on the way to it is empty or has a dot or an opening
bracket in it, and no index there has more than 64 bits. Among such leaves no two are shown alike, and a text that is
typed for one of them in a draft becomes its value, while the others stay. -/
theorem leaves_addressed (hv : root.Tidy fun _ => True) (hs : ¬root.IsScalar) :
    (∀ p v, (p, v) ∈ root.leaves [] → (root.Addressed p v ↔ p.IsPlain)) ∧
      (∀ p v q u, (p, v) ∈ root.leaves [] → (q, u) ∈ root.leaves [] → p.IsPlain → q.IsPlain →
        FieldPath.text p = FieldPath.text q → p = q ∧ v = u) ∧
      ∀ (d : Draft) p v raw, d.body = root → (p, v) ∈ root.leaves [] → p.IsPlain →
        ∃ d', d.setField (FieldPath.text p) raw = .ok d' ∧
          d'.body.leaves [] = (root.leaves []).map fun l => if l.1 = p then (p, coerce p raw v) else l := by
  refine ⟨fun p v hl => addressed_iff hv hs hl, fun p v q u hp hq hplain hplain' htext => ?_, ?_⟩
  · have hparse := FieldPath.parse_text (ne_nil_of_mem_leaves hv hs hp) hplain
    rw [htext, FieldPath.parse_text (ne_nil_of_mem_leaves hv hs hq) hplain'] at hparse
    obtain rfl := Except.ok.inj hparse
    exact ⟨rfl, Option.some.inj (((mem_leaves_iff hv).1 hp).1.symm.trans ((mem_leaves_iff hv).1 hq).1)⟩
  · rintro d p v raw rfl hl hplain
    exact exists_setField_text hv hs hl hplain raw

/-- A tree in which two leaves are shown alike. -/
def dotted : Json := .obj [("a", .obj [("b", .int 1)]), ("a.b", .int 2)]

theorem tidy_scalar_member {key : String} (hv : v.IsScalar) : (Json.obj [(key, v)]).Tidy fun _ => True :=
  tidy_obj.2 ⟨List.nodup_singleton key, List.forall_mem_singleton.2 (.scalar hv trivial)⟩

theorem tidy_dotted : dotted.Tidy fun _ => True :=
  tidy_obj.2 ⟨by decide, List.forall_mem_cons.2 ⟨tidy_scalar_member trivial,
    List.forall_mem_singleton.2 (.scalar trivial trivial)⟩⟩

theorem leaves_addressed_dotted : (dotted.Tidy fun _ => True) ∧ ¬dotted.IsScalar ∧
    dotted.Addressed [.key "a", .key "b"] (.int 1) ∧ ¬dotted.Addressed [.key "a.b"] (.int 2) := by
  obtain ⟨haddressed, -, -⟩ := leaves_addressed tidy_dotted id
  refine ⟨tidy_dotted, id, (haddressed _ _ (.head _)).2 ?_, mt (haddressed _ _ (.tail _ (.head _))).1 ?_⟩
  · simp [FieldPath.IsPlain, Segment.IsPlain]
  · simp [FieldPath.IsPlain, Segment.IsPlain]

/-- A tree whose only leaf cannot be found by what is shown for it. -/
def unreached : Json := .obj [("a.b", .int 1)]

theorem not_addressed_unreached : (unreached.Tidy fun _ => True) ∧ ¬unreached.IsScalar ∧
    unreached.leaves [] = [([.key "a.b"], .int 1)] ∧
    FieldPath.parse (FieldPath.text [.key "a.b"]) = .ok [.key "a", .key "b"] ∧
    unreached.at? [.key "a", .key "b"] = none ∧
    (∀ u, unreached.setField [.key "a", .key "b"] u = .error (.noField "a.b")) ∧
    ¬unreached.Addressed [.key "a.b"] (.int 1) ∧
    (dotted.leaves []).map Prod.fst = [[.key "a", .key "b"], [.key "a.b"]] ∧
    FieldPath.text [.key "a", .key "b"] = FieldPath.text [.key "a.b"] := by
  have hparse : FieldPath.parse (FieldPath.text [.key "a.b"]) = .ok [.key "a", .key "b"] := rfl
  refine ⟨tidy_scalar_member trivial, id, rfl, hparse, rfl, fun _ => rfl, ?_, rfl, rfl⟩
  rintro ⟨q, hq, hat, -⟩
  obtain rfl := Except.ok.inj (hparse.symm.trans hq)
  contradiction

end Json
end MockRedirect
