import MockRedirect.Proofs.Address
import Mathlib.Data.List.TakeWhile
/-! The paths that addresses lead to, whatever is read: they are made of slashes and of characters that
are kept in a segment, and a path that begins with a slash still does. -/
namespace MockRedirect
open Text

/-! ### Encoded characters -/

namespace Text

/-- The characters that stand for others in an encoded text. -/
def isEscape (c : Char) : Bool := c == '%' || isAsciiDigit c || ('A' ≤ c && c ≤ 'F')

theorem lt_of_mem_utf8Char {c : Char} {b : Nat} (h : b ∈ utf8Char c) : b < 256 := by
  have hc : c.toNat < 0x110000 := by
    have hvalid : c.toNat < 0xd800 ∨ 0xdfff < c.toNat ∧ c.toNat < 0x110000 := c.valid
    omega
  simp only [utf8Char] at h
  split at h
  · obtain rfl := List.mem_singleton.1 h
    omega
  · split at h
    · simp only [List.mem_cons, List.not_mem_nil, or_false] at h
      omega
    · split at h
      all_goals
        simp only [List.mem_cons, List.not_mem_nil, or_false] at h
        omega

theorem isEscape_hexUpper {n : Nat} (h : n < 16) : isEscape (hexUpper n) = true := by
  have hall : ∀ n < 16, isEscape (hexUpper n) = true := by decide
  exact hall n h

theorem isEscape_of_mem_percentByte {b : Nat} (hb : b < 256) {c : Char} (h : c ∈ percentByte b) :
    isEscape c = true := by
  simp only [percentByte, List.mem_cons, List.not_mem_nil, or_false] at h
  obtain rfl | rfl | rfl := h
  · decide
  · exact isEscape_hexUpper (by omega)
  · exact isEscape_hexUpper (by omega)

theorem mem_percentEncode {keep : Char → Bool} {s : List Char} {c : Char}
    (h : c ∈ percentEncode keep s) : (c ∈ s ∧ keep c = true) ∨ isEscape c = true := by
  obtain ⟨d, hd, hc⟩ := List.mem_flatMap.1 h
  split at hc
  · next hkeep =>
    obtain rfl := List.mem_singleton.1 hc
    exact .inl ⟨hd, hkeep⟩
  · obtain ⟨b, hb, hc⟩ := List.mem_flatMap.1 hc
    exact .inr (isEscape_of_mem_percentByte (lt_of_mem_utf8Char hb) hc)

theorem mem_of_mem_before {sep c : Char} {s : List Char} (h : c ∈ before sep s) : c ∈ s ∧ c ≠ sep :=
  ⟨(List.takeWhile_sublist _).subset h, by simpa using List.mem_takeWhile_imp h⟩

end Text

namespace Address

/-! ### Characters of a path -/

/-- What may stand in a path: a slash, or a character that is kept in a segment. -/
def InPath (c : Char) : Prop := c = '/' ∨ keepsSegment c = true

theorem inPath_slash : InPath '/' := .inl rfl

theorem inPath_of_isEscape {c : Char} (h : isEscape c = true) : InPath c := by
  have hlow : c.toNat < 128 := by
    simp only [isEscape, Bool.or_eq_true, Bool.and_eq_true, beq_iff_eq, decide_eq_true_eq] at h
    obtain (rfl | h) | h := h
    · decide
    · exact toNat_lt_of_isAsciiDigit h
    · exact toNat_lt_of_le h.2 (by decide)
  exact .inr (of_ascii (p := fun c => isEscape c = true → keepsSegment c = true) (by decide +kernel)
    hlow h)

theorem InPath.ne {c : Char} (h : InPath c) : c ≠ '?' := by
  obtain rfl | h := h
  · decide
  · exact (keeps_cases h).1

theorem keepsSegment_of_isAsciiLetter {c : Char} (h : isAsciiLetter c = true) :
    keepsSegment c = true :=
  of_ascii (p := fun c => isAsciiLetter c = true → keepsSegment c = true) (by decide +kernel)
    (toNat_lt_of_isAsciiLetter h) h

theorem inPath_percentEncode {s : List Char} {c : Char} (h : c ∈ percentEncode keepsSegment s) :
    InPath c :=
  (mem_percentEncode h).elim (fun h => .inr h.2) inPath_of_isEscape

theorem inPath_encodeSegment {file : Bool} {kept : List (List Char)} {s : List Char} {c : Char}
    (h : c ∈ encodeSegment file kept s) : InPath c := by
  have hcolon : InPath ':' := .inr (by decide)
  unfold encodeSegment at h
  split at h
  · -- at the start of a file path: a drive letter may come first
    split at h
    · split at h
      · next hdrive =>
        simp only [isDriveLetter, Bool.and_eq_true] at hdrive
        simp only [List.mem_cons, List.not_mem_nil, or_false] at h
        obtain rfl | rfl := h
        · exact .inr (keepsSegment_of_isAsciiLetter hdrive.1)
        · exact hcolon
      · exact inPath_percentEncode h
    · split at h
      · next hletter =>
        simp only [List.mem_cons] at h
        obtain rfl | rfl | rfl | h := h
        · exact .inr (keepsSegment_of_isAsciiLetter hletter)
        · exact hcolon
        · exact inPath_slash
        · exact inPath_percentEncode h
      · exact inPath_percentEncode h
    · exact inPath_percentEncode h
  · exact inPath_percentEncode h

theorem mem_pathText {kept : List (List Char)} {c : Char} (h : c ∈ pathText kept) :
    c = '/' ∨ ∃ s ∈ kept, c ∈ s := by
  simp only [pathText, List.mem_cons, List.mem_flatMap, List.mem_reverse, List.mem_append,
    List.not_mem_nil, or_false] at h
  obtain rfl | ⟨s, hs, hc | rfl⟩ := h
  · exact .inl rfl
  · exact .inr ⟨s, hs, hc⟩
  · exact .inl rfl

theorem goUp_subset (kept : List (List Char)) : goUp kept ⊆ kept := by
  cases kept with
  | nil => exact List.Subset.refl _
  | cons s kept =>
    rw [goUp]
    split
    · exact List.Subset.refl _
    · exact List.subset_cons_self s kept

theorem inPath_pathText {kept : List (List Char)} (hk : ∀ s ∈ kept, ∀ c ∈ s, InPath c) :
    ∀ c ∈ pathText kept, InPath c := by
  intro c hc
  obtain rfl | ⟨s, hs, hc⟩ := mem_pathText hc
  · exact inPath_slash
  · exact hk s hs c hc

theorem inPath_resolve {file : Bool} {kept ss : List (List Char)}
    (hk : ∀ s ∈ kept, ∀ c ∈ s, InPath c) : ∀ c ∈ resolve file kept ss, InPath c := by
  induction ss generalizing kept with
  | nil => exact inPath_pathText hk
  | cons s ss ih =>
    rw [resolve]
    dsimp only
    split
    · exact ih fun t ht => hk t (goUp_subset kept ht)
    · split
      · exact ih hk
      · split
        · intro c hc
          obtain hc | hc := List.mem_append.1 hc
          · exact inPath_pathText hk c hc
          · exact inPath_encodeSegment hc
        · refine ih fun t ht => ?_
          obtain rfl | ht := List.mem_cons.1 ht
          · exact fun c => inPath_encodeSegment
          · exact hk t ht

theorem inPath_rooted {kind : SchemeKind} {s : List Char} : ∀ c ∈ rooted kind s, InPath c := by
  have hresolve (ss : List (List Char)) : ∀ c ∈ resolve (kind = .file) [] ss, InPath c :=
    inPath_resolve (by simp)
  intro c hc
  unfold rooted at hc
  dsimp only at hc
  split at hc
  · obtain rfl | hc := List.mem_cons.1 hc
    · exact inPath_slash
    · exact hresolve _ c ((List.dropWhile_sublist _).subset hc)
  · exact hresolve _ c hc

/-! ### Segments of a path -/

/-- What stands before a percent sign is no dot segment, unless it begins an encoded dot. -/
theorem mem_plainDots {u r s : List Char} (hs : s = u ++ '%' :: r) (he : ¬['2', 'e'] <+: r)
    (hE : ¬['2', 'E'] <+: r) : '%' ∈ plainDots s := by
  have htail {a b c d e f : Char} {x y : List Char} (h : a :: b :: c :: x = d :: e :: f :: y) : x = y :=
    (List.cons.inj (List.cons.inj (List.cons.inj h).2).2).2
  fun_induction plainDots s generalizing u with
  | case1 cs ih =>
    match u, hs with
    | [], hs => exact absurd ⟨cs, (List.cons.inj hs).2⟩ he
    | [_], hs | [_, _], hs => simp at hs
    | _ :: _ :: _ :: u, hs => exact List.mem_cons_of_mem _ (ih (htail hs))
  | case2 cs ih =>
    match u, hs with
    | [], hs => exact absurd ⟨cs, (List.cons.inj hs).2⟩ hE
    | [_], hs | [_, _], hs => simp at hs
    | _ :: _ :: _ :: u, hs => exact List.mem_cons_of_mem _ (ih (htail hs))
  | case3 c cs _ _ ih =>
    match u, hs with
    | [], hs =>
      rw [(List.cons.inj hs).1]
      exact List.mem_cons_self
    | _ :: _, hs => exact List.mem_cons_of_mem _ (ih (List.cons.inj hs).2)
  | case4 => simp at hs

theorem head_utf8Char (c : Char) : ∃ b bs, utf8Char c = b :: bs ∧ (b = c.toNat ∨ 0x80 ≤ b) := by
  simp only [utf8Char]
  split
  · exact ⟨_, _, rfl, .inl rfl⟩
  · split
    · exact ⟨_, _, rfl, .inr (by omega)⟩
    · split
      · exact ⟨_, _, rfl, .inr (by omega)⟩
      · exact ⟨_, _, rfl, .inr (by omega)⟩

/-- No dot is encoded. -/
theorem not_dot_percentByte {b : Nat} (hb : b < 256) (hdot : b ≠ 0x2e) (r : List Char) :
    ∃ t, percentByte b ++ r = '%' :: t ∧ ¬['2', 'e'] <+: t ∧ ¬['2', 'E'] <+: t := by
  have hsmall : ∀ n < 16, hexUpper n ≠ 'e' := by decide
  have hbyte : ∀ b < 256, hexUpper (b / 16) = '2' → hexUpper (b % 16) = 'E' → b = 0x2e := by decide +kernel
  refine ⟨hexUpper (b / 16) :: hexUpper (b % 16) :: r, rfl, ?_, ?_⟩
  · rintro ⟨u, hu⟩
    exact hsmall (b % 16) (by omega) (List.cons.inj (List.cons.inj hu).2).1.symm
  · rintro ⟨u, hu⟩
    obtain ⟨hhigh, hu⟩ := List.cons.inj hu
    exact hdot (hbyte b hb hhigh.symm (List.cons.inj hu).1.symm)

/-- A segment that changes when it is encoded is no dot segment afterwards. -/
theorem plainDots_percentEncode (s : List Char) : percentEncode keepsSegment s = s ∨
    '%' ∈ plainDots (percentEncode keepsSegment s) := by
  by_cases hkept : ∀ c ∈ s, keepsSegment c = true
  · exact .inl (percentEncode_of_kept hkept)
  · right
    simp only [not_forall] at hkept
    obtain ⟨c, hc, hdrop⟩ := hkept
    obtain ⟨u, w, rfl⟩ := List.append_of_mem hc
    obtain ⟨b, bs, hb, hcases⟩ := head_utf8Char c
    have hlt : b < 256 := lt_of_mem_utf8Char (hb ▸ List.mem_cons_self)
    have hdot : b ≠ 0x2e := by
      rintro rfl
      obtain hc | hc := hcases
      · have hdot : c = '.' := Char.toNat_inj.1 hc.symm
        exact hdrop (hdot ▸ by decide)
      · omega
    obtain ⟨t, ht, he, hE⟩ :=
      not_dot_percentByte hlt hdot (bs.flatMap percentByte ++ percentEncode keepsSegment w)
    refine mem_plainDots (u := percentEncode keepsSegment u) ?_ he hE
    rw [← ht]
    simp [percentEncode, hdrop, hb]

theorem isSettled_percentEncode {s : List Char} (hs : ∀ c ∈ s, c ≠ '/' ∧ c ≠ '\\') (hne : s ≠ [])
    (hdot : plainDots s ≠ ['.']) (hdots : plainDots s ≠ ['.', '.']) :
    IsSettled (percentEncode keepsSegment s) := by
  have hplain {t : List Char} (ht : plainDots s ≠ t) (hpercent : '%' ∉ t) :
      plainDots (percentEncode keepsSegment s) ≠ t := by
    rintro rfl
    obtain heq | hmem := plainDots_percentEncode s
    · exact ht (by rw [heq])
    · exact hpercent hmem
  refine ⟨fun c hc => ?_, ?_, hplain hdot (by decide), hplain hdots (by decide)⟩
  · obtain ⟨hmem, hkeep⟩ | hescape := mem_percentEncode hc
    · exact ⟨hkeep, hs c hmem⟩
    · obtain rfl | hkeep := inPath_of_isEscape hescape
      · contradiction
      · refine ⟨hkeep, ?_, ?_⟩ <;> rintro rfl <;> contradiction
  · obtain ⟨c, s, rfl⟩ := List.exists_cons_of_ne_nil hne
    obtain ⟨b, bs, hb, -⟩ := head_utf8Char c
    by_cases hkeep : keepsSegment c = true <;> simp [percentEncode, hkeep, hb, percentByte]

theorem pathText_append (kept : List (List Char)) (t : List Char) :
    pathText kept ++ t = pathOf (kept.reverse ++ [t]) := by
  rw [pathText, pathOf, join_append_cons]
  simp

/-- Wherever a list of segments leads to, its path is made of settled segments and empty ones. -/
theorem exists_resolve {kept ss : List (List Char)} (hk : ∀ t ∈ kept, SettledOrEmpty t)
    (hs : ∀ s ∈ ss, ∀ c ∈ s, c ≠ '/' ∧ c ≠ '\\') :
    ∃ ts, ts ≠ [] ∧ resolve false kept ss = pathOf ts ∧ ∀ t ∈ ts, SettledOrEmpty t := by
  have hend {kept : List (List Char)} {t : List Char} (hk : ∀ t ∈ kept, SettledOrEmpty t)
      (ht : SettledOrEmpty t) :
      ∃ ts, ts ≠ [] ∧ pathText kept ++ t = pathOf ts ∧ ∀ t ∈ ts, SettledOrEmpty t := by
    refine ⟨kept.reverse ++ [t], by simp, pathText_append kept t, fun u hu => ?_⟩
    obtain hu | hu := List.mem_append.1 hu
    · exact hk u (List.mem_reverse.1 hu)
    · exact List.mem_singleton.1 hu ▸ ht
  induction ss generalizing kept with
  | nil =>
    rw [resolve, ← List.append_nil (pathText kept)]
    exact hend hk (.inl rfl)
  | cons s ss ih =>
    rw [List.forall_mem_cons] at hs
    rw [resolve]
    dsimp only
    split
    · exact ih (fun t ht => hk t (goUp_subset kept ht)) hs.2
    · split
      · exact ih hk hs.2
      · next hdots hdot =>
        have ht : SettledOrEmpty (percentEncode keepsSegment s) := by
          by_cases hne : s = []
          · exact .inl (by rw [hne]; rfl)
          · exact .inr (isSettled_percentEncode hs.1 hne hdot hdots)
        split
        · exact hend hk ht
        · exact ih (List.forall_mem_cons.2 ⟨ht, hk⟩) hs.2

/-- Whatever is read as the path of a URL with a host, the path is made of settled segments and empty
ones. -/
theorem exists_rooted (s : List Char) :
    ∃ ts, ts ≠ [] ∧ rooted .special s = pathOf ts ∧ ∀ t ∈ ts, SettledOrEmpty t := by
  refine exists_resolve (by simp) fun t ht c hc => ?_
  obtain ⟨hmem, hslash⟩ := mem_of_mem_split ht hc
  refine ⟨hslash, ?_⟩
  rintro rfl
  rw [if_neg (by decide)] at hmem
  obtain ⟨d, -, hd⟩ := List.mem_map.1 hmem
  split at hd
  · contradiction
  · contradiction

/-! ### The start of a path -/

theorem head?_pathText (kept : List (List Char)) : (pathText kept).head? = some '/' := rfl

theorem head?_resolve (file : Bool) (kept ss : List (List Char)) :
    (resolve file kept ss).head? = some '/' := by
  induction ss generalizing kept with
  | nil => exact head?_pathText kept
  | cons s ss ih =>
    rw [resolve]
    dsimp only
    split
    · exact ih _
    · split
      · exact ih _
      · split
        · rw [List.head?_append, head?_pathText]
          rfl
        · exact ih _

theorem head?_rooted (kind : SchemeKind) (s : List Char) : (rooted kind s).head? = some '/' := by
  unfold rooted
  dsimp only
  split
  · rfl
  · exact head?_resolve ..

/-! ### Reading -/

variable {base : Bool} {s : List Char} {a : Address}

/-- However the text after an authority is read, the path is made of what stands before a query. -/
theorem path_finish (read : List Char → List Char) (s : List Char) :
    ∃ p, (finish read s).path = read p ∧ '?' ∉ p := by
  refine ⟨_, rfl, fun h => ?_⟩
  have hstop := List.mem_takeWhile_imp h
  simp at hstop

theorem notMem_path_finish_rooted (kind : SchemeKind) (s : List Char) :
    '?' ∉ (finish (rooted kind) s).path := by
  obtain ⟨p, hp, -⟩ := path_finish (rooted kind) s
  rw [hp]
  exact fun h => (inPath_rooted _ h).ne rfl

theorem notMem_path_afterSlashes {kind : SchemeKind} (h : afterSlashes kind s = .ok a) :
    '?' ∉ a.path := by
  obtain ⟨glued, -, h⟩ := bind_eq_ok.1 h
  cases h
  obtain ⟨p, hp, -⟩ := path_finish (fun p => if kind = .other ∧ p = [] then [] else rooted kind p) _
  rw [hp]
  split
  · exact List.not_mem_nil
  · exact fun h => (inPath_rooted _ h).ne rfl

theorem notMem_path_readFile (h : readFile s = .ok a) : '?' ∉ a.path := by
  unfold readFile at h
  split at h
  · split at h
    · dsimp only at h
      split at h
      · cases h
        exact notMem_path_finish_rooted _ _
      · split at h
        · obtain ⟨_, -, h⟩ := bind_eq_ok.1 h
          cases h
          exact notMem_path_finish_rooted _ _
        · cases h
          exact notMem_path_finish_rooted _ _
    · cases h
      exact notMem_path_finish_rooted _ _
  · cases h
    exact notMem_path_finish_rooted _ _

theorem notMem_path_readRelative (h : readRelative s = .ok a) : '?' ∉ a.path := by
  unfold readRelative at h
  split at h
  · split at h
    · exact notMem_path_afterSlashes h
    · cases h
      exact notMem_path_finish_rooted _ _
  · cases h
    exact notMem_path_finish_rooted _ _

theorem notMem_path_readScheme {scheme : List Char} (h : readScheme base scheme s = .ok a) :
    '?' ∉ a.path := by
  unfold readScheme at h
  split at h
  · exact notMem_path_readFile h
  · split at h
    · exact notMem_path_readRelative h
    · exact notMem_path_afterSlashes h
  · split at h
    · exact notMem_path_afterSlashes h
    · cases h
      exact notMem_path_finish_rooted _ _
    · -- a path without slashes is encoded as a whole, question marks and all
      cases h
      obtain ⟨p, hp, hquery⟩ := path_finish (percentEncode keepsOpaque) s
      rw [hp]
      intro hmem
      obtain ⟨hmem, -⟩ | hescape := mem_percentEncode hmem
      · exact hquery hmem
      · exact absurd hescape (by decide)

/-- Whatever is read, the path ends before the query. -/
theorem notMem_path_of_read (h : read base s = .ok a) : '?' ∉ a.path := by
  rw [read] at h
  split at h
  · exact notMem_path_readScheme h
  · split at h
    · exact notMem_path_readRelative h
    · contradiction

theorem cleaned_slash (s : List Char) : ∃ t, cleaned ('/' :: s) = '/' :: t := by
  have hlow : ('/'.toNat ≤ 0x20) = False := by decide
  rw [cleaned]
  simp only [List.dropWhile_cons, hlow, decide_false, Bool.false_eq_true, if_false, List.reverse_cons,
    List.dropWhile_append]
  split
  · exact ⟨_, rfl⟩
  · rw [List.reverse_append]
    exact ⟨_, rfl⟩

theorem head?_path_readRelative (h : readRelative s = .ok a) : a.path.head? = some '/' := by
  have hfinish (s : List Char) : (finish (rooted .special) s).path.head? = some '/' := by
    obtain ⟨p, hp, -⟩ := path_finish (rooted .special) s
    rw [hp, head?_rooted]
  have hslashes {s : List Char} (h : afterSlashes .special s = .ok a) : a.path.head? = some '/' := by
    obtain ⟨glued, -, h⟩ := bind_eq_ok.1 h
    cases h
    exact hfinish _
  unfold readRelative at h
  split at h
  · split at h
    · exact hslashes h
    · cases h
      exact hfinish _
  · cases h
    exact hfinish _

/-- The path of a text that begins with a slash begins with one. -/
theorem head?_path_of_read (h : read true ('/' :: s) = .ok a) : a.path.head? = some '/' := by
  obtain ⟨t, ht⟩ := cleaned_slash s
  have hscheme : scheme? ('/' :: t) = none := rfl
  rw [read, ht] at h
  simp only [hscheme, if_true] at h
  exact head?_path_readRelative h

end Address
end MockRedirect
