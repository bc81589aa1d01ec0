import Mathlib.Data.List.Basic
import MockRedirect.Proofs.Intercept
import MockRedirect.Proofs.Resolved
/-! Empty segments of a path. A template drops them, and only the star of a number beside them takes them in
again. -/
namespace MockRedirect
open Text

/-! ### Gaps -/

namespace Endpoint

/-- The segments of a path behind the first one that is not empty. -/
def innerSegments (path : List Char) : List (List Char) := ((split '/' path).dropWhile (· = [])).tail

/-- Whether each empty segment stands next to a number, perhaps with other empty ones between; `behind` tells
whether the last segment that is not empty was a number. -/
def gapsAtNumbers (behind : Bool) : List (List Char) → Bool
  | [] => true
  | s :: ss =>
    if s = [] then (behind || (ss.find? (· ≠ [])).any isNumeric) && gapsAtNumbers behind ss
    else gapsAtNumbers (isNumeric s) ss

end Endpoint

/-! ### Gaps that stars take in -/

theorem Filled.refl {s : List Char} (hs : '\n' ∉ s) : Filled s s := by
  induction s with
  | nil => exact .nil
  | cons c s ih =>
    rw [List.mem_cons, not_or] at hs
    by_cases hc : c = '*'
    · subst hc
      exact .star ['*'] (by decide) (ih hs.2)
    · exact .char hc (ih hs.2)

theorem Filled.append {p q s t : List Char} (h : Filled p s) (h' : Filled q t) : Filled (p ++ q) (s ++ t) := by
  induction h with
  | nil => exact h'
  | star run hrun _ ih =>
    rw [List.append_assoc]
    exact .star run hrun ih
  | char hc _ ih => exact .char hc ih

namespace Endpoint

/-- A star for a number. -/
def starNumber (s : List Char) : List Char := if isNumeric s then ['*'] else s

/-- Segments with a slash before each of them. -/
def slashed (ss : List (List Char)) : List Char := ss.flatMap ('/' :: ·)

/-- What is left of segments in a template. -/
def keptText (ss : List (List Char)) : List Char := slashed ((ss.filter (· ≠ [])).map starNumber)

variable {s : List Char} {ss : List (List Char)}

theorem slashed_cons (s : List Char) (ss : List (List Char)) : slashed (s :: ss) = '/' :: (s ++ slashed ss) :=
  List.flatMap_cons

theorem keptText_nil_cons (ss : List (List Char)) : keptText ([] :: ss) = keptText ss := rfl

theorem keptText_cons (hs : s ≠ []) (ss : List (List Char)) :
    keptText (s :: ss) = '/' :: (starNumber s ++ keptText ss) := by
  rw [keptText, List.filter_cons_of_pos (by simpa using hs), List.map_cons, slashed_cons]
  rfl

/-- What is left of segments stands for them if stars take in the gaps. The star of a number may have taken in
something already, or the number may still be ahead. -/
theorem filled_slashed (hline : ∀ s ∈ ss, '\n' ∉ s) :
    (gapsAtNumbers false ss = true → Filled (keptText ss) (slashed ss)) ∧
    (gapsAtNumbers true ss = true → ∀ run, '\n' ∉ run → Filled ('*' :: keptText ss) (run ++ slashed ss)) ∧
    ∀ behind, gapsAtNumbers behind ss = true → (ss.find? (· ≠ [])).any isNumeric = true →
      ∀ run, '\n' ∉ run → ∃ rest, keptText ss = '/' :: '*' :: rest ∧ Filled ('*' :: rest) (run ++ slashed ss) := by
  induction ss with
  | nil => exact ⟨fun _ => .nil, fun _ run hrun => .star run hrun .nil, fun _ _ h => absurd h (by simp)⟩
  | cons s ss ih =>
    rw [List.forall_mem_cons] at hline
    obtain ⟨hclosed, hopen, hahead⟩ := ih hline.2
    rw [slashed_cons]
    by_cases hs : s = []
    · subst hs
      have hslash {run : List Char} (hrun : '\n' ∉ run) : '\n' ∉ run ++ ['/'] := by simpa using hrun
      have htext (run : List Char) : run ++ '/' :: ([] ++ slashed ss) = run ++ ['/'] ++ slashed ss := by simp
      simp only [gapsAtNumbers, if_true, Bool.and_eq_true, Bool.or_eq_true, Bool.false_eq_true, false_or,
        true_or, true_and, keptText_nil_cons, htext]
      refine ⟨fun ⟨hnext, hgaps⟩ => ?_, fun hgaps run hrun => hopen hgaps _ (hslash hrun),
        fun behind ⟨_, hgaps⟩ hnext run hrun => ?_⟩
      · obtain ⟨rest, heq, hfilled⟩ := hahead false hgaps hnext [] List.not_mem_nil
        rw [heq]
        exact .char (by decide) hfilled
      · exact hahead behind hgaps (by simpa using hnext) _ (hslash hrun)
    · have hsegment (h : gapsAtNumbers (isNumeric s) ss = true) :
          Filled (starNumber s ++ keptText ss) (s ++ slashed ss) := by
        rw [starNumber]
        cases hnum : isNumeric s with
        | true => exact hopen (hnum ▸ h) s hline.1
        | false => exact (Filled.refl hline.1).append (hclosed (hnum ▸ h))
      simp only [gapsAtNumbers, if_neg hs, keptText_cons hs]
      refine ⟨fun h => .char (by decide) (hsegment h),
        fun h run hrun => .star run hrun (.char (by decide) (hsegment h)), fun _ h hnum run hrun => ?_⟩
      have hnum : isNumeric s = true := by simpa [hs] using hnum
      have htext : run ++ '/' :: (s ++ slashed ss) = run ++ '/' :: s ++ slashed ss := by simp
      rw [hnum] at h
      refine ⟨keptText ss, by simp [starNumber, hnum], ?_⟩
      rw [htext]
      exact hopen h _ (by simpa using ⟨hrun, hline.1⟩)

/-! ### The end of a path -/

/-- The empty segments at the front of a path. -/
theorem exists_empty (ts : List (List Char)) : ∃ es, [] :: ts = es ++ ([] :: ts).dropWhile (· = []) ∧ es ≠ [] ∧
    (∀ e ∈ es, e = []) ∧ ([] :: ts).filter (· ≠ []) = (([] :: ts).dropWhile (· = [])).filter (· ≠ []) := by
  have hempty : ∀ e ∈ ([] :: ts).takeWhile (· = []), e = [] := fun e he => by simpa using List.mem_takeWhile_imp he
  have hparts := (List.takeWhile_append_dropWhile (p := (· = [])) (l := [] :: ts)).symm
  have hnone : (([] :: ts).takeWhile (· = [])).filter (· ≠ []) = [] :=
    List.filter_eq_nil_iff.2 fun e he => by simp [hempty e he]
  have hkept := congrArg (List.filter (· ≠ [])) hparts
  rw [List.filter_append, hnone, List.nil_append] at hkept
  exact ⟨_, hparts, by simp, hempty, hkept⟩

theorem exists_slash {es : List (List Char)} (hne : es ≠ []) (hes : ∀ e ∈ es, e = []) :
    ∃ front, es.flatMap (· ++ ['/']) = front ++ ['/'] := by
  obtain rfl | ⟨es, e, rfl⟩ := List.eq_nil_or_concat' es
  · contradiction
  · have he : e = [] := hes e (by simp)
    exact ⟨es.flatMap (· ++ ['/']), by simp [he]⟩

/-- A path ends with its first segment that is not empty and what follows it, if there is one, and its template
is made of what is left of these. -/
theorem exists_path_eq {path : List Char} (h : path.head? = some '/') : ∃ front s,
    path = front ++ '/' :: (s ++ slashed (innerSegments path)) ∧
      pathOf (starNumbers path) = '/' :: (s ++ keptText (innerSegments path)) ∧
      '/' ∉ s ∧ (s = [] → innerSegments path = []) := by
  obtain ⟨t, rfl⟩ := List.head?_eq_some_iff.1 h
  have hpath := join_split '/' ('/' :: t)
  have hsplit : split '/' ('/' :: t) = [] :: split '/' t := by rw [split, if_pos rfl]
  obtain ⟨es, hparts, hne, hempty, hkept⟩ := exists_empty (split '/' t)
  rw [innerSegments, starNumbers, hsplit, hkept]
  rw [hsplit] at hpath
  cases hdrop : ([] :: split '/' t).dropWhile (· = []) with
  | nil =>
    -- only slashes: the last one of them is the template
    rw [hdrop] at hparts
    obtain ⟨es, e, rfl⟩ := (List.eq_nil_or_concat' es).resolve_left hne
    have he : e = [] := hempty e (by simp)
    rw [hparts, List.append_nil, join_append_cons, he, List.nil_append, List.flatMap_nil, List.append_nil] at hpath
    have hes : es ≠ [] := by
      rintro rfl
      contradiction
    obtain ⟨front, hfront⟩ := exists_slash hes fun e he => hempty e (List.mem_append_left _ he)
    exact ⟨front, [], hpath.symm.trans hfront, rfl, List.not_mem_nil, fun _ => rfl⟩
  | cons s ss =>
    have hs : s ≠ [] := by
      have hhead := List.head?_dropWhile_not (fun s : List Char => decide (s = [])) ([] :: split '/' t)
      rw [hdrop] at hhead
      simpa using hhead
    have hslash : '/' ∉ s := fun hc => by
      have hmem : s ∈ [] :: split '/' t := (List.dropWhile_sublist _).subset (hdrop ▸ List.mem_cons_self)
      rw [← hsplit] at hmem
      exact (mem_of_mem_split hmem hc).2 rfl
    obtain ⟨front, hfront⟩ := exists_slash hne hempty
    rw [hparts, hdrop, join_append_cons, hfront, List.append_assoc] at hpath
    refine ⟨front, s, hpath.symm, ?_, hslash, fun hnil => absurd hnil hs⟩
    rw [List.filter_cons_of_pos (by simpa using hs)]
    exact congrArg ('/' :: ·) (join_append_cons [] s _)

/-! ### Paths without stars -/

theorem split_map_folded (s : List Char) : split '/' (s.map folded) = (split '/' s).map (·.map folded) := by
  induction s with
  | nil => rfl
  | cons c s ih =>
    have hslash : folded c = '/' ↔ c = '/' := by
      constructor
      · intro h
        rw [← h, folded_eq_self (by rw [h]; decide)]
      · rintro rfl
        decide
    rw [List.map_cons, split, split, ih]
    by_cases hc : c = '/'
    · rw [if_pos hc, if_pos (hslash.2 hc)]
      rfl
    · rw [if_neg hc, if_neg (mt hslash.1 hc)]
      obtain ⟨p, ps, hp⟩ := List.exists_cons_of_ne_nil (split_ne_nil '/' s)
      rw [hp]
      rfl

theorem gapsAtNumbers_of_nonempty (h : ∀ s ∈ ss, s ≠ []) (behind : Bool) : gapsAtNumbers behind ss = true := by
  induction ss generalizing behind with
  | nil => rfl
  | cons s ss ih =>
    rw [List.forall_mem_cons] at h
    rw [gapsAtNumbers, if_neg h.1]
    exact ih h.2 _

theorem split_slashed {s : List Char} (hs : '/' ∉ s) (hss : ∀ t ∈ ss, '/' ∉ t) :
    split '/' (s ++ slashed ss) = s :: ss := by
  rw [slashed, ← List.nil_append (s ++ _), ← List.flatMap_nil (f := (· ++ ['/'])), ← join_append_cons,
    List.nil_append]
  exact split_join (List.cons_ne_nil s ss) (List.forall_mem_cons.2 ⟨hs, hss⟩)

/-- What is left of segments without numbers, in any case, has as many segments, and none of them is empty. -/
theorem split_of_folded {s y : List Char} (hne : s ≠ []) (hs : '/' ∉ s) (hss : ∀ t ∈ ss, '/' ∉ t)
    (hy : y.map folded = (s ++ slashed (ss.filter (· ≠ []))).map folded) :
    (∀ t ∈ split '/' y, t ≠ []) ∧ (split '/' y).length = (ss.filter (· ≠ [])).length + 1 := by
  have hpieces : (split '/' y).map (·.map folded) = (s :: ss.filter (· ≠ [])).map (·.map folded) := by
    rw [← split_map_folded, hy, split_map_folded, split_slashed hs fun t ht => hss t (List.mem_filter.1 ht).1]
  refine ⟨?_, by simpa using congrArg List.length hpieces⟩
  rintro t ht rfl
  have hmem : [] ∈ (split '/' y).map (·.map folded) := List.mem_map.2 ⟨[], ht, rfl⟩
  rw [hpieces] at hmem
  obtain ⟨t, ht, hnil⟩ := List.mem_map.1 hmem
  obtain rfl := List.map_eq_nil_iff.1 hnil
  obtain rfl | ht := List.mem_cons.1 ht
  · contradiction
  · simp at ht

/-- Two lists end alike. If one has no empty segments, and one more than there are at the end of the other that
are not empty, then there are no empty ones at this end. -/
theorem gapsAtNumbers_of_append {s : List Char} {ps qs rs : List (List Char)} (h : qs ++ s :: ss = rs ++ ps)
    (hps : ∀ p ∈ ps, p ≠ []) (hcount : ps.length = (ss.filter (· ≠ [])).length + 1) :
    gapsAtNumbers false ss = true := by
  have hsuffix : ss <:+ rs ++ ps := ⟨qs ++ [s], by rw [← h]; simp⟩
  obtain hin | hin := List.suffix_or_suffix_of_suffix (List.suffix_append rs ps) hsuffix
  · have hle := (hin.sublist.filter (· ≠ [])).length_le
    rw [List.filter_eq_self.2 fun p hp => by simpa using hps p hp] at hle
    omega
  · exact gapsAtNumbers_of_nonempty (fun t ht => hps t (hin.subset ht)) false

theorem keptText_of_not_numeric (h : ∀ s ∈ ss, isNumeric s = false) :
    keptText ss = slashed (ss.filter (· ≠ [])) := by
  rw [keptText, List.map_congr_left (g := id), List.map_id]
  intro s hs
  rw [starNumber, h s (List.mem_filter.1 hs).1]
  rfl

theorem slashed_filter_subset (ss : List (List Char)) : slashed (ss.filter (· ≠ [])) ⊆ slashed ss := by
  intro c hc
  obtain ⟨t, ht, hc⟩ := List.mem_flatMap.1 hc
  exact List.mem_flatMap.2 ⟨t, (List.mem_filter.1 ht).1, hc⟩

/-- If the template of a path has no stars, its tokens span the end of the path only if there are no gaps. -/
theorem gapsAtNumbers_of_spans {origin path front p post : List Char} (hhead : path.head? = some '/')
    (hnumber : ∀ s ∈ innerSegments path, isNumeric s = false) (hstar : '*' ∉ path) (hcaret : '^' ∉ path)
    (hfront : origin ++ path = front ++ p)
    (hspans : (Pattern.chain (((pathOf (starNumbers path)).map Token.of).map Token.pattern)).Spans front p post) :
    gapsAtNumbers false (innerSegments path) = true := by
  obtain ⟨before, s, htext, htemplate, hs, hnone⟩ := exists_path_eq hhead
  by_cases hne : s = []
  · rw [hnone hne]
    rfl
  have hslashes : ∀ t ∈ innerSegments path, '/' ∉ t := fun t ht hc =>
    (mem_of_mem_split ((List.dropWhile_sublist _).subset (List.mem_of_mem_tail ht)) hc).2 rfl
  generalize innerSegments path = ss at hnumber htext htemplate hslashes ⊢
  rw [keptText_of_not_numeric hnumber] at htemplate
  have hliteral : ∀ c ∈ pathOf (starNumbers path), c ≠ '*' ∧ c ≠ '^' := by
    intro c hc
    have hmem : c ∈ path := by
      rw [htemplate, List.mem_cons, List.mem_append] at hc
      rw [htext, List.mem_append, List.mem_cons, List.mem_append]
      exact .inr (hc.imp_right (Or.imp_right (slashed_filter_subset ss ·)))
    exact ⟨fun he => hstar (he ▸ hmem), fun he => hcaret (he ▸ hmem)⟩
  have hfolded := (Token.spans_iff_folded hliteral).1 hspans
  rw [htemplate] at hfolded
  obtain ⟨c, y, rfl, hc, hy⟩ := List.map_eq_cons_iff.1 hfolded
  obtain rfl : c = '/' := (folded_eq_self (by rw [hc]; decide)).symm.trans hc
  have hends : split '/' (origin ++ before) ++ s :: ss = split '/' front ++ split '/' y := by
    rw [← split_slashed hs hslashes, ← split_append, ← split_append, List.append_assoc, ← htext, hfront]
  obtain ⟨hfull, hcount⟩ := split_of_folded hne hs hslashes hy
  exact gapsAtNumbers_of_append hends hfull hcount

end Endpoint

end MockRedirect
