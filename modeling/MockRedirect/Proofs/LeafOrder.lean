import MockRedirect.Proofs.Leaves
import MockRedirect.Proofs.RoundTrip
import Mathlib.Data.List.Forall2
/-! The leaves of a tree in the order of its text. A text of a tree has a hole for each leaf, in the order of the list,
and with other scalars in the holes it is a text of a tree that has these scalars at the listed paths. -/
namespace MockRedirect

namespace Text

/-- A text with holes, each of which takes the next of some texts. -/
def fill : List (Option Char) → List (List Char) → List Char
  | [], _ => []
  | some c :: frame, ts => c :: fill frame ts
  | none :: frame, [] => fill frame []
  | none :: frame, t :: ts => t ++ fill frame ts

variable {frame frame' : List (Option Char)} {ts ts' : List (List Char)}

theorem fill_append (h : frame.count none = ts.length) :
    fill (frame ++ frame') (ts ++ ts') = fill frame ts ++ fill frame' ts' := by
  induction frame generalizing ts with
  | nil =>
    obtain rfl := List.length_eq_zero_iff.1 h.symm
    rfl
  | cons c frame ih =>
    cases c with
    | some c =>
      rw [List.count_cons_of_ne (Option.some_ne_none c)] at h
      rw [List.cons_append, fill, fill, ih h, List.cons_append]
    | none =>
      rw [List.count_cons_self] at h
      cases ts with
      | nil => contradiction
      | cons t ts => rw [List.cons_append, List.cons_append, fill, fill, ih (Nat.succ.inj h), List.append_assoc]

theorem count_literal (s : List Char) : (s.map some).count none = 0 := by
  simp [List.count_eq_zero]

theorem fill_literal (s : List Char) (frame : List (Option Char)) (ts : List (List Char)) :
    fill (s.map some ++ frame) ts = s ++ fill frame ts := by
  induction s with
  | nil => rfl
  | cons c s ih => rw [List.map_cons, List.cons_append, fill, ih, List.cons_append]

end Text

namespace Json
open Document Text

variable {s t : List Char} {v root : Json} {path : FieldPath} {ls ls' : List (FieldPath × Json)}

/-! ### Holes -/

/-- The scalars of a list stand in a text in the order of the list: the text has a hole for each of them, and with the
texts of whatever scalars in the holes, from left to right, it stands for the list with these scalars. -/
def Ordered (spelling : List Char → Json → Prop) (stands : List Char → List (FieldPath × Json) → Prop)
    (s : List Char) (ls : List (FieldPath × Json)) : Prop :=
  ∃ frame : List (Option Char), frame.count none = ls.length ∧
    (∃ ts, List.Forall₂ spelling ts (ls.map Prod.snd) ∧ fill frame ts = s) ∧
    ∀ ts us, List.Forall₂ spelling ts us → us.length = ls.length →
      stands (fill frame ts) ((ls.map Prod.fst).zip us)

section
variable {S : List Char → Json → Prop} {P Q R : List Char → List (FieldPath × Json) → Prop}

theorem Ordered.imp (h : Ordered S P s ls) (himp : ∀ s ls, P s ls → Q s ls) : Ordered S Q s ls := by
  obtain ⟨frame, hcount, hown, hall⟩ := h
  exact ⟨frame, hcount, hown, fun ts us hts hus => himp _ _ (hall ts us hts hus)⟩

theorem ordered_nil (h : P s []) : Ordered S P s [] := by
  have hfill : fill (s.map some) [] = s := by
    rw [← List.append_nil (s.map some), fill_literal, fill, List.append_nil]
  refine ⟨s.map some, count_literal s, ⟨[], .nil, hfill⟩, fun ts us hts hus => ?_⟩
  obtain rfl := List.length_eq_zero_iff.1 hus
  cases hts
  rw [hfill]
  exact h

theorem ordered_singleton (hv : S s v) (h : ∀ t u, S t u → P t [(path, u)]) :
    Ordered S P s [(path, v)] := by
  refine ⟨[none], rfl, ⟨[s], .cons hv .nil, List.append_nil s⟩, fun ts us hts hus => ?_⟩
  obtain ⟨u, rfl⟩ := List.length_eq_one_iff.1 hus
  cases hts with
  | cons hu hnil =>
    cases hnil
    rw [fill, fill, List.append_nil]
    exact h _ _ hu

/-- A text without scalars in front. -/
theorem Ordered.lead (h : Ordered S P s ls) (g : List Char) (hQ : ∀ s ls, P s ls → Q (g ++ s) ls) :
    Ordered S Q (g ++ s) ls := by
  obtain ⟨frame, hcount, ⟨ts, hts, hfill⟩, hall⟩ := h
  refine ⟨g.map some ++ frame, ?_, ⟨ts, hts, ?_⟩, fun ts us hts hus => ?_⟩
  · rw [List.count_append, count_literal, Nat.zero_add, hcount]
  · rw [fill_literal, hfill]
  · rw [fill_literal]
    exact hQ _ _ (hall ts us hts hus)

/-- Behind `g` there is a text that stands for a list. -/
def Behind (g : List Char) (P : List Char → List (FieldPath × Json) → Prop) (s : List Char)
    (ls : List (FieldPath × Json)) : Prop :=
  ∃ t, s = g ++ t ∧ P t ls

theorem Ordered.behind (h : Ordered S P s ls) (g : List Char) : Ordered S (Behind g P) (g ++ s) ls :=
  h.lead g fun t _ ht => ⟨t, rfl, ht⟩

theorem Ordered.append (h : Ordered S P s ls) (h' : Ordered S Q t ls')
    (hR : ∀ s ls t ls', P s ls → Q t ls' → R (s ++ t) (ls ++ ls')) : Ordered S R (s ++ t) (ls ++ ls') := by
  obtain ⟨frame, hcount, ⟨ts, hts, hfill⟩, hall⟩ := h
  obtain ⟨frame', hcount', ⟨ts', hts', hfill'⟩, hall'⟩ := h'
  have hlen : frame.count none = ts.length := by rw [hcount, hts.length_eq, List.length_map]
  refine ⟨frame ++ frame', ?_, ⟨ts ++ ts', ?_, ?_⟩, fun xs us hxs hus => ?_⟩
  · rw [List.count_append, hcount, hcount', List.length_append]
  · rw [List.map_append]
    exact List.rel_append hts hts'
  · rw [fill_append hlen, hfill, hfill']
  · rw [List.length_append] at hus
    have hfront := List.forall₂_take ls.length hxs
    have hrest := List.forall₂_drop ls.length hxs
    have hus' : (us.take ls.length).length = ls.length := by rw [List.length_take]; omega
    have hxs' : frame.count none = (xs.take ls.length).length := by rw [hfront.length_eq, hus', hcount]
    have happ := hR _ _ _ _ (hall _ _ hfront hus') (hall' _ _ hrest (by rw [List.length_drop]; omega))
    rw [← fill_append hxs', List.take_append_drop, ← List.zip_append (by rw [List.length_map, hus']),
      List.take_append_drop, ← List.map_append] at happ
    exact happ

/-- Two texts one after the other, with a text without scalars in front. -/
theorem Ordered.join (h : Ordered S P s ls) (h' : Ordered S Q t ls') (g : List Char)
    (hR : ∀ s ls t ls', P s ls → Q t ls' → R (g ++ (s ++ t)) (ls ++ ls')) :
    Ordered S R (g ++ (s ++ t)) (ls ++ ls') :=
  (h.append h' (R := fun x xs => R (g ++ x) xs) hR).lead g fun _ _ => id

end

/-! ### Texts that are read -/

/-- A text of a scalar. -/
def Spelling (t : List Char) (u : Json) : Prop := u.IsScalar ∧ Writes t u

/-- The leaves that a part of a document stands for. -/
def listed (path : FieldPath) (i : Nat) : Part → Option (List (FieldPath × Json))
  | .value d => d.value?.map (leaves path)
  | .items ds | .moreItems ds => (itemValues? ds).map (leavesOfItems path i)
  | .members ms | .moreMembers ms => (memberValues? ms).map (leavesOfMembers path)

/-- A text spells a part of the same kind, and this part stands for the leaves. -/
def Stands (path : FieldPath) (i : Nat) : Part → List Char → List (FieldPath × Json) → Prop
  | .value _, s, ls => ∃ d, Spells .strict s (.value d) ∧ listed path i (.value d) = some ls
  | .items _, s, ls => ∃ ds, Spells .strict s (.items ds) ∧ listed path i (.items ds) = some ls
  | .moreItems _, s, ls => ∃ ds, Spells .strict s (.moreItems ds) ∧ listed path i (.moreItems ds) = some ls
  | .members _, s, ls => ∃ ms, Spells .strict s (.members ms) ∧ listed path i (.members ms) = some ls
  | .moreMembers _, s, ls => ∃ ms, Spells .strict s (.moreMembers ms) ∧ listed path i (.moreMembers ms) = some ls

theorem listed_list (path : FieldPath) (i : Nat) (ds : List Document) :
    listed path i (.value (.list ds)) = listed path 0 (.items ds) := by
  rw [listed, listed, value?, Option.map_map]
  rfl

theorem listed_record (path : FieldPath) (i j : Nat) (ms : Entries) :
    listed path i (.value (.record ms)) = listed path j (.members ms) := by
  rw [listed, listed, value?, Option.map_map]
  rfl

theorem listed_items_cons {i : Nat} {d : Document} {ds : List Document} :
    listed path i (.items (d :: ds)) = some ls ↔ ∃ l l', listed (path ++ [.index i]) 0 (.value d) = some l ∧
      listed path (i + 1) (.moreItems ds) = some l' ∧ l ++ l' = ls := by
  simp only [listed, Option.map_eq_some_iff]
  constructor
  · rintro ⟨vs, hvs, rfl⟩
    obtain ⟨x, xs, hx, hxs, rfl⟩ := itemValues?_cons.1 hvs
    exact ⟨_, _, ⟨x, hx, rfl⟩, ⟨xs, hxs, rfl⟩, rfl⟩
  · rintro ⟨_, _, ⟨x, hx, rfl⟩, ⟨xs, hxs, rfl⟩, rfl⟩
    exact ⟨x :: xs, itemValues?_cons.2 ⟨x, xs, hx, hxs, rfl⟩, rfl⟩

theorem listed_members_cons {i : Nat} {k : List Char} {d : Document} {ms : Entries} :
    listed path i (.members ((k, d) :: ms)) = some ls ↔ ∃ key l l', stringValue? k = some key ∧
      listed (path ++ [.key key]) i (.value d) = some l ∧ listed path i (.moreMembers ms) = some l' ∧
      l ++ l' = ls := by
  simp only [listed, Option.map_eq_some_iff]
  constructor
  · rintro ⟨vs, hvs, rfl⟩
    obtain ⟨key, x, xs, hkey, hx, hxs, rfl⟩ := memberValues?_cons.1 hvs
    exact ⟨key, _, _, hkey, ⟨x, hx, rfl⟩, ⟨xs, hxs, rfl⟩, rfl⟩
  · rintro ⟨key, _, _, hkey, ⟨x, hx, rfl⟩, ⟨xs, hxs, rfl⟩, rfl⟩
    exact ⟨(key, x) :: xs, memberValues?_cons.2 ⟨key, x, xs, hkey, hx, hxs, rfl⟩, rfl⟩

theorem ordered_of_isScalar {d d' : Document} (hs : Spells .strict s (.value d)) (hd : d.value? = some v)
    (hv : v.IsScalar) (path : FieldPath) (i : Nat) : Ordered Spelling (Stands path i (.value d')) s (v.leaves path) := by
  rw [leaves_of_isScalar hv]
  refine ordered_singleton ⟨hv, d, hs, hd⟩ fun t u hu => ?_
  obtain ⟨hscalar, e, he, hvalue⟩ := hu
  exact ⟨e, he, by rw [listed, hvalue, Option.map_some, leaves_of_isScalar hscalar]⟩

/-- The leaves of what a text spells stand in the text in the order in which they are listed. -/
theorem ordered_of_spells {part : Part} (h : Spells .strict s part) (path : FieldPath) (i : Nat)
    (hls : listed path i part = some ls) : Ordered Spelling (Stands path i part) s ls := by
  induction h generalizing path i ls with
  | word hw =>
    obtain ⟨v, hv, rfl⟩ := Option.map_eq_some_iff.1 hls
    exact ordered_of_isScalar (.word hw) hv (short_of_wordValue hv).1 path i
  | text hb =>
    obtain ⟨v, hv, rfl⟩ := Option.map_eq_some_iff.1 hls
    obtain ⟨key, hkey, rfl⟩ := value?_text.1 hv
    exact ordered_of_isScalar (.text hb) hv trivial path i
  | emptyList hg =>
    cases hls
    exact ordered_nil ⟨_, .emptyList hg, rfl⟩
  | list hg _ ih =>
    rw [listed_list] at hls
    refine (ih path 0 hls).lead ('[' :: _) fun s ls hs => ?_
    obtain ⟨ds, hs, hls⟩ := hs
    exact ⟨.list ds, .list hg hs, (listed_list ..).trans hls⟩
  | emptyRecord hg =>
    cases hls
    exact ordered_nil ⟨_, .emptyRecord hg, rfl⟩
  | record hg _ ih =>
    rw [listed_record path i i] at hls
    refine (ih path i hls).lead ('\x7b' :: _) fun s ls hs => ?_
    obtain ⟨ms, hs, hls⟩ := hs
    exact ⟨.record ms, .record hg hs, (listed_record ..).trans hls⟩
  | item _ hg _ ih ih' =>
    obtain ⟨l, l', hl, hl', rfl⟩ := listed_items_cons.1 hls
    refine (ih _ 0 hl).append ((ih' path (i + 1) hl').behind _) fun s ls t ls' hs ht => ?_
    obtain ⟨d, hs, hd⟩ := hs
    obtain ⟨t, rfl, ds, ht, hds⟩ := ht
    exact ⟨d :: ds, .item hs hg ht, listed_items_cons.2 ⟨ls, ls', hd, hds, rfl⟩⟩
  | lastItem =>
    cases hls
    exact ordered_nil ⟨[], .lastItem, rfl⟩
  | trailingItem htrail => exact htrail.elim
  | nextItem hg _ ih =>
    refine (ih path i hls).lead (',' :: _) fun s ls hs => ?_
    obtain ⟨ds, hs, hls⟩ := hs
    exact ⟨ds, .nextItem hg hs, hls⟩
  | @member k g₁ g₂ _ g₃ _ _ _ hk hg₁ hg₂ _ hg₃ _ ih ih' =>
    obtain ⟨key, l, l', hkey, hl, hl', rfl⟩ := listed_members_cons.1 hls
    have hlead (t : List Char) : '"' :: (k ++ '"' :: (g₁ ++ ':' :: (g₂ ++ t))) =
        '"' :: (k ++ '"' :: (g₁ ++ ':' :: g₂)) ++ t := by simp
    rw [hlead]
    refine (ih (path ++ [.key key]) i hl).join ((ih' path i hl').behind g₃) _ fun s ls t ls' hs ht => ?_
    obtain ⟨d, hs, hd⟩ := hs
    obtain ⟨t, rfl, ms, ht, hms⟩ := ht
    rw [← hlead]
    exact ⟨(k, d) :: ms, .member hk hg₁ hg₂ hs hg₃ ht, listed_members_cons.2 ⟨key, ls, ls', hkey, hd, hms, rfl⟩⟩
  | extra _ hx => exact hx.elim
  | bare _ hx => exact hx.elim
  | lastMember =>
    cases hls
    exact ordered_nil ⟨[], .lastMember, rfl⟩
  | trailingMember htrail => exact htrail.elim
  | nextMember hg _ ih =>
    refine (ih path i hls).lead (',' :: _) fun s ls hs => ?_
    obtain ⟨ms, hs, hls⟩ := hs
    exact ⟨ms, .nextMember hg hs, hls⟩

/-! ### Texts that are written -/

/-- The text of a scalar as it is written. -/
def Written (t : List Char) (u : Json) : Prop := u.IsScalar ∧ t = u.compact

theorem pretty_of_isScalar (hv : v.IsScalar) (n : Nat) : v.pretty n = v.compact := by
  cases v with
  | arr | obj => exact hv.elim
  | _ => rfl

/-- The indented text of a tree with these leaves. -/
def Shows (n : Nat) (path : FieldPath) (s : List Char) (ls : List (FieldPath × Json)) : Prop :=
  ∃ w : Json, w.pretty n = s ∧ w.leaves path = ls

variable {n : Nat}

theorem prettyItems_cons (n : Nat) (x : Json) (xs : List Json) : prettyItems n (x :: xs) =
    ',' :: indent (n + 1) ++ (x.pretty (n + 1) ++ prettyItems n xs) := by
  simp [prettyItems]

theorem prettyMembers_cons (n : Nat) (k : String) (x : Json) (ms : Members) : prettyMembers n ((k, x) :: ms) =
    ',' :: indent (n + 1) ++ quoted k ++ [':', ' '] ++ (x.pretty (n + 1) ++ prettyMembers n ms) := by
  simp [prettyMembers]

theorem pretty_arr_cons (n : Nat) (x : Json) (xs : List Json) : (Json.arr (x :: xs)).pretty n =
    '[' :: indent (n + 1) ++ (x.pretty (n + 1) ++ prettyItems n xs) := by
  simp [pretty]

theorem pretty_obj_cons (n : Nat) (k : String) (x : Json) (ms : Members) : (Json.obj ((k, x) :: ms)).pretty n =
    '\x7b' :: indent (n + 1) ++ quoted k ++ [':', ' '] ++ (x.pretty (n + 1) ++ prettyMembers n ms) := by
  simp [pretty]

theorem ordered_prettyItems {xs : List Json} (path : FieldPath) (i : Nat)
    (h : ∀ x ∈ xs, ∀ path, Ordered Written (Shows (n + 1) path) (x.pretty (n + 1)) (x.leaves path)) :
    Ordered Written (fun s ls => ∃ ws, prettyItems n ws = s ∧ leavesOfItems path i ws = ls)
      (prettyItems n xs) (leavesOfItems path i xs) := by
  induction xs generalizing i with
  | nil => exact ordered_nil ⟨[], rfl, rfl⟩
  | cons x xs ih =>
    rw [List.forall_mem_cons] at h
    rw [prettyItems_cons]
    refine (h.1 _).join (ih (i + 1) h.2) _ ?_
    rintro _ _ _ _ ⟨w, rfl, rfl⟩ ⟨ws, rfl, rfl⟩
    exact ⟨w :: ws, prettyItems_cons n w ws, rfl⟩

theorem ordered_prettyMembers {ms : Members} (path : FieldPath)
    (h : ∀ m ∈ ms, ∀ path, Ordered Written (Shows (n + 1) path) (m.2.pretty (n + 1)) (m.2.leaves path)) :
    Ordered Written (fun s ls => ∃ ws, prettyMembers n ws = s ∧ leavesOfMembers path ws = ls)
      (prettyMembers n ms) (leavesOfMembers path ms) := by
  induction ms with
  | nil => exact ordered_nil ⟨[], rfl, rfl⟩
  | cons m ms ih =>
    rw [List.forall_mem_cons] at h
    rw [prettyMembers_cons]
    refine (h.1 _).join (ih h.2) _ ?_
    rintro _ _ _ _ ⟨w, rfl, rfl⟩ ⟨ws, rfl, rfl⟩
    exact ⟨(m.1, w) :: ws, prettyMembers_cons n m.1 w ws, rfl⟩

/-- The leaves of a tree stand in its indented text in the order in which they are listed. -/
theorem ordered_pretty (v : Json) (n : Nat) (path : FieldPath) :
    Ordered Written (Shows n path) (v.pretty n) (v.leaves path) := by
  induction v using induct generalizing n path with
  | scalar v hv =>
    rw [leaves_of_isScalar hv, pretty_of_isScalar hv]
    refine ordered_singleton ⟨hv, rfl⟩ ?_
    rintro _ u ⟨hu, rfl⟩
    exact ⟨u, pretty_of_isScalar hu n, leaves_of_isScalar hu path⟩
  | arr xs ih =>
    cases xs with
    | nil => exact ordered_nil ⟨.arr [], rfl, rfl⟩
    | cons x xs =>
      rw [List.forall_mem_cons] at ih
      rw [pretty_arr_cons]
      refine (ih.1 (n + 1) _).join (ordered_prettyItems path 1 fun x hx => ih.2 x hx (n + 1)) _ ?_
      rintro _ _ _ _ ⟨w, rfl, rfl⟩ ⟨ws, rfl, rfl⟩
      exact ⟨.arr (w :: ws), pretty_arr_cons n w ws, rfl⟩
  | obj ms ih =>
    cases ms with
    | nil => exact ordered_nil ⟨.obj [], rfl, rfl⟩
    | cons m ms =>
      rw [List.forall_mem_cons] at ih
      rw [pretty_obj_cons]
      refine (ih.1 (n + 1) _).join (ordered_prettyMembers path fun m hm => ih.2 m hm (n + 1)) _ ?_
      rintro _ _ _ _ ⟨w, rfl, rfl⟩ ⟨ws, rfl, rfl⟩
      exact ⟨.obj ((m.1, w) :: ws), pretty_obj_cons n m.1 w ws, rfl⟩

/-! ### The list of leaves -/

/-- Two lists with the same paths, each of them listed once, are the same if one holds the other. -/
theorem eq_of_paths {ls ls' : List (FieldPath × Json)} (hpaths : ls.map Prod.fst = ls'.map Prod.fst)
    (hn : (ls'.map Prod.fst).Nodup) (hmem : ∀ l ∈ ls', l ∈ ls) : ls = ls' := by
  induction ls' generalizing ls with
  | nil => exact List.map_eq_nil_iff.1 hpaths
  | cons l' ls' ih =>
    obtain ⟨l, ls, rfl⟩ := List.exists_cons_of_ne_nil fun hnil : ls = [] => by simp [hnil] at hpaths
    rw [List.map_cons, List.map_cons, List.cons.injEq] at hpaths
    rw [List.map_cons, List.nodup_cons] at hn
    rw [List.forall_mem_cons] at hmem
    obtain rfl | hl' := List.mem_cons.1 hmem.1
    · refine congrArg (l' :: ·) (ih hpaths.2 hn.2 fun m hm => ?_)
      obtain rfl | hm' := List.mem_cons.1 (hmem.2 m hm)
      · exact absurd (List.mem_map_of_mem hm) hn.1
      · exact hm'
    · exact absurd (hpaths.2 ▸ List.mem_map_of_mem hl') hn.1

/-- Other scalars in the places of all leaves, put there in any order. -/
theorem setAll_zip {us : List Json} {edits : List (FieldPath × Json)} (hv : root.Tidy fun _ => True)
    (hs : ¬root.IsScalar) (hlen : us.length = (root.leaves []).length) (hus : ∀ u ∈ us, u.IsScalar)
    (hedits : edits.Perm (((root.leaves []).map Prod.fst).zip us)) :
    ∃ w, root.setAll edits = .ok w ∧ w.leaves [] = ((root.leaves []).map Prod.fst).zip us := by
  have hfst : (((root.leaves []).map Prod.fst).zip us).map Prod.fst = (root.leaves []).map Prod.fst :=
    List.map_fst_zip (by rw [List.length_map, hlen])
  have hn : ((((root.leaves []).map Prod.fst).zip us).map Prod.fst).Nodup := by
    rw [hfst]
    exact nodup_leaves hv
  have hplaces : ∀ e ∈ edits, e.1 ∈ (root.leaves []).map Prod.fst ∧ e.2.IsScalar := by
    intro e he
    obtain ⟨hpath, hvalue⟩ := List.of_mem_zip (hedits.mem_iff.1 he)
    exact ⟨hpath, hus _ hvalue⟩
  obtain ⟨w, hw, hpaths, hnew, -⟩ := setAll_leaves hv hs hplaces ((hedits.map Prod.fst).nodup_iff.2 hn)
  exact ⟨w, hw, eq_of_paths (hpaths.trans hfst.symm) hn fun l hl => hnew l (hedits.mem_iff.2 hl)⟩

/-- The list of leaves has every scalar of a tree once: no path is repeated, and the entries are just the scalars that
are found at their paths. They stand in the order of the text, of every text that is read as the tree and of the one
that is written. Other scalars that are put in the places of all of them, in any order, give a tree with the same paths
in its list and the new values. -/
theorem leaves_list_scalars (hv : root.Tidy fun _ => True) :
    ((root.leaves []).map Prod.fst).Nodup ∧
      (∀ p u, (p, u) ∈ root.leaves [] ↔ root.at? p = some u ∧ u.IsScalar) ∧
      (∀ s, Writes s root →
        Ordered Spelling (fun t ls => ∃ w, Writes t w ∧ w.leaves [] = ls) s (root.leaves [])) ∧
      Ordered Written (fun t ls => ∃ w : Json, w.pretty 0 = t ∧ w.leaves [] = ls) (root.pretty 0) (root.leaves []) ∧
      (¬root.IsScalar → ∀ us : List Json, us.length = (root.leaves []).length → (∀ u ∈ us, u.IsScalar) →
        ∀ edits : List (FieldPath × Json), edits.Perm (((root.leaves []).map Prod.fst).zip us) →
          ∃ w, root.setAll edits = .ok w ∧ w.leaves [] = ((root.leaves []).map Prod.fst).zip us) := by
  refine ⟨nodup_leaves hv, fun p u => mem_leaves_iff hv, fun s hs => ?_, ordered_pretty root 0 [],
    fun hs us hlen hus edits hedits => setAll_zip hv hs hlen hus hedits⟩
  obtain ⟨d, hspells, hvalue⟩ := hs
  have hlisted : listed [] 0 (.value d) = some (root.leaves []) := by rw [listed, hvalue, Option.map_some]
  refine (ordered_of_spells hspells [] 0 hlisted).imp fun t ls ht => ?_
  obtain ⟨e, he, hls⟩ := ht
  obtain ⟨w, hw, rfl⟩ := Option.map_eq_some_iff.1 hls
  exact ⟨w, ⟨e, he, hw⟩, rfl⟩

/-- A tree with scalars before, behind and between containers, one of them empty. -/
def mixed : Json :=
  .obj [("b", .int 1), ("a", .obj [("c", .arr [.bool true, .obj [], .null])])]

theorem tidy_mixed : mixed.Tidy fun _ => True := by
  have hscalar {v : Json} (hv : v.IsScalar) : v.Tidy fun _ => True := .scalar hv trivial
  have hitems : (Json.arr [.bool true, .obj [], .null]).Tidy fun _ => True := by
    rw [tidy_arr, List.forall_mem_cons, List.forall_mem_cons, List.forall_mem_singleton]
    exact ⟨hscalar trivial, tidy_obj.2 ⟨by decide, nofun⟩, hscalar trivial⟩
  have hinner : (Json.obj [("c", .arr [.bool true, .obj [], .null])]).Tidy fun _ => True :=
    tidy_obj.2 ⟨by decide, List.forall_mem_singleton.2 hitems⟩
  exact tidy_obj.2 ⟨by decide, List.forall_mem_cons.2 ⟨hscalar trivial, List.forall_mem_singleton.2 hinner⟩⟩

theorem leaves_list_scalars_mixed : (mixed.Tidy fun _ => True) ∧
    ([.key "a", .key "c", .index 2], .null) ∈ mixed.leaves [] ∧
    ([.key "a", .key "c", .index 1], .obj []) ∉ mixed.leaves [] ∧
    ∃ w, mixed.setAll [([.key "a", .key "c", .index 2], .str "x"), ([.key "b"], .int 2),
        ([.key "a", .key "c", .index 0], .null)] = .ok w ∧
      w.leaves [] = [([.key "b"], .int 2), ([.key "a", .key "c", .index 0], .null),
        ([.key "a", .key "c", .index 2], .str "x")] := by
  obtain ⟨-, hmem, -, -, hset⟩ := leaves_list_scalars tidy_mixed
  refine ⟨tidy_mixed, (hmem _ _).2 ⟨rfl, trivial⟩, fun h => ((hmem _ _).1 h).2, ?_⟩
  have hscalars : ∀ u ∈ [.int 2, .null, .str "x"], IsScalar u := by simp [IsScalar]
  have horder (a b c : FieldPath × Json) : [c, a, b].Perm [a, b, c] := (List.perm_append_singleton c [a, b]).symm
  exact hset id [.int 2, .null, .str "x"] rfl hscalars _ (horder ..)

end Json
end MockRedirect
