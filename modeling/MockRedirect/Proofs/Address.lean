import MockRedirect.Proofs.Ascii
import MockRedirect.Proofs.Pieces
import MockRedirect.Url.Address
/-! Addresses whose path is in its final form: reading them changes nothing. -/
namespace MockRedirect
open Text

theorem bind_eq_ok {x : Except ε α} {f : α → Except ε β} {b : β} :
    x >>= f = .ok b ↔ ∃ a, x = .ok a ∧ f a = .ok b := by
  cases x <;> simp [bind, Except.bind]

theorem map_eq_ok {x : Except ε α} {f : α → β} {b : β} : x.map f = .ok b ↔ ∃ a, x = .ok a ∧ f a = b := by
  cases x <;> simp [Except.map]

theorem mapM_eq_some {f : α → Option β} {as : List α} {bs : List β} :
    as.mapM f = some bs ↔ as.map f = bs.map some := by
  induction as generalizing bs with
  | nil => cases bs <;> simp
  | cons a as ih => cases bs <;> simp [List.mapM_cons, Option.bind_eq_some_iff, ih]

/-! ### Plain characters -/

/-- The characters that need no encoding in a path, and the star. -/
def isPlain (c : Char) : Bool := isUnreserved c || c == '*'

theorem isAscii_of_isPlain {c : Char} (h : isPlain c = true) : c.toNat < 128 := by
  simp only [isPlain, isUnreserved, isAsciiLetter, Bool.or_eq_true, beq_iff_eq] at h
  rcases h with ((((((h | h) | h) | rfl) | rfl) | rfl) | rfl) | rfl
  · exact toNat_lt_of_isAsciiUpper h
  · exact toNat_lt_of_isAsciiLower h
  · exact toNat_lt_of_isAsciiDigit h
  all_goals decide

/-- What reading an address does to other characters it does not do to plain ones. -/
theorem plain_cases {c : Char} (h : isPlain c = true) :
    Address.keepsSegment c = true ∧ c ∉ "/\\?#%<^&=|+".toList ∧ isBlank c = false ∧ 0x20 < c.toNat :=
  of_ascii (p := fun c => isPlain c = true → Address.keepsSegment c = true ∧
    c ∉ "/\\?#%<^&=|+".toList ∧ isBlank c = false ∧ 0x20 < c.toNat) (by decide +kernel)
    (isAscii_of_isPlain h) h

/-- A segment of plain characters that is no dot segment. -/
structure IsPlainSegment (s : List Char) : Prop where
  plain : ∀ c ∈ s, isPlain c = true
  nonempty : s ≠ []
  no_dot : s ≠ ['.']
  no_dots : s ≠ ['.', '.']

/-- A segment that is read as it is: nothing in it is encoded or parts it, and it is no dot segment, not
even an encoded one. -/
structure IsSettled (s : List Char) : Prop where
  kept : ∀ c ∈ s, Address.keepsSegment c = true ∧ c ≠ '/' ∧ c ≠ '\\'
  nonempty : s ≠ []
  no_dot : Address.plainDots s ≠ ['.']
  no_dots : Address.plainDots s ≠ ['.', '.']

/-- A path of such segments. -/
def pathOf (ss : List (List Char)) : List Char := '/' :: join ['/'] ss

theorem mem_pathOf {ss : List (List Char)} {c : Char} (hc : c ∈ pathOf ss) : c = '/' ∨ ∃ s ∈ ss, c ∈ s :=
  (List.mem_cons.1 hc).elim .inl mem_join

theorem plain_of_mem_pathOf {ss : List (List Char)} (h : ∀ s ∈ ss, IsPlainSegment s) {c : Char}
    (hc : c ∈ pathOf ss) : c = '/' ∨ isPlain c = true :=
  (mem_pathOf hc).imp_right fun ⟨s, hs, hcs⟩ => (h s hs).plain c hcs

/-- What follows a path: nothing, or a query. -/
def queryText : Option (List Char) → List Char
  | none => []
  | some q => '?' :: q

theorem before_append_queryText {s : List Char} (h : '?' ∉ s) (query : Option (List Char)) :
    before '?' (s ++ queryText query) = s := by
  cases query with
  | none =>
    rw [queryText, List.append_nil]
    exact before_of_notMem h
  | some q => exact before_append_cons h q

namespace Address

/-! ### Paths -/

theorem plainDots_of_plain {s : List Char} (h : ∀ c ∈ s, isPlain c = true) : plainDots s = s := by
  induction s with
  | nil => rfl
  | cons c s ih =>
    rw [List.forall_mem_cons] at h
    have hc : c ≠ '%' := fun he => absurd h.1 (by rw [he]; decide)
    unfold plainDots
    split
    · next he => exact absurd (List.cons.inj he).1 hc
    · next he => exact absurd (List.cons.inj he).1 hc
    · next he =>
      obtain ⟨rfl, rfl⟩ := List.cons.inj he
      rw [ih h.2]
    · contradiction

end Address

theorem IsPlainSegment.settled {s : List Char} (h : IsPlainSegment s) : IsSettled s where
  kept c hc := by
    obtain ⟨hkeep, hmem, -, -⟩ := plain_cases (h.plain c hc)
    refine ⟨hkeep, ?_, ?_⟩ <;> rintro rfl <;> exact hmem (by decide)
  nonempty := h.nonempty
  no_dot := by
    rw [Address.plainDots_of_plain h.plain]
    exact h.no_dot
  no_dots := by
    rw [Address.plainDots_of_plain h.plain]
    exact h.no_dots

namespace Address

theorem isAscii_of_keepsSegment {c : Char} (h : keepsSegment c = true) : c.toNat < 128 := by
  simp only [keepsSegment, keepsOpaque, Bool.and_eq_true, decide_eq_true_eq] at h
  omega

/-- What reading an address does to other characters it does not do to those that are kept. -/
theorem keeps_cases {c : Char} (h : keepsSegment c = true) :
    c ≠ '?' ∧ c ≠ '#' ∧ c ≠ '<' ∧ isBlank c = false ∧ 0x20 < c.toNat :=
  of_ascii (p := fun c => keepsSegment c = true →
    c ≠ '?' ∧ c ≠ '#' ∧ c ≠ '<' ∧ isBlank c = false ∧ 0x20 < c.toNat) (by decide +kernel)
    (isAscii_of_keepsSegment h) h

theorem percentEncode_of_kept {keep : Char → Bool} {s : List Char} (h : ∀ c ∈ s, keep c = true) :
    percentEncode keep s = s := by
  induction s with
  | nil => rfl
  | cons c s ih =>
    rw [List.forall_mem_cons] at h
    rw [percentEncode, List.flatMap_cons, if_pos h.1]
    exact congrArg (c :: ·) (ih h.2)

theorem pathText_cons (s : List Char) (kept : List (List Char)) :
    pathText (s :: kept) = pathText kept ++ s ++ ['/'] := by
  simp [pathText]

/-- What a path is made of: settled segments, and empty ones. -/
def SettledOrEmpty (s : List Char) : Prop := s = [] ∨ IsSettled s

namespace SettledOrEmpty

variable {s : List Char}

theorem kept (h : SettledOrEmpty s) : ∀ c ∈ s, keepsSegment c = true ∧ c ≠ '/' ∧ c ≠ '\\' := by
  obtain rfl | h := h
  · exact List.forall_mem_nil _
  · exact h.kept

theorem slash (h : SettledOrEmpty s) : '/' ∉ s := fun hc => (h.kept _ hc).2.1 rfl

theorem no_dots (h : SettledOrEmpty s) : plainDots s ≠ ['.'] ∧ plainDots s ≠ ['.', '.'] := by
  obtain rfl | h := h
  · simp [plainDots]
  · exact ⟨h.no_dot, h.no_dots⟩

end SettledOrEmpty

theorem resolve_of_settled {ss : List (List Char)} (hne : ss ≠ []) (h : ∀ s ∈ ss, SettledOrEmpty s)
    (kept : List (List Char)) : resolve false kept ss = pathText kept ++ join ['/'] ss := by
  induction ss generalizing kept with
  | nil => contradiction
  | cons s ss ih =>
    rw [List.forall_mem_cons] at h
    have hencode : encodeSegment false kept s = s := percentEncode_of_kept fun c hc => (h.1.kept c hc).1
    rw [resolve, if_neg h.1.no_dots.2, if_neg h.1.no_dots.1, hencode]
    cases ss with
    | nil => rfl
    | cons t ss =>
      have hj : join ['/'] (s :: t :: ss) = s ++ ['/'] ++ join ['/'] (t :: ss) := rfl
      rw [if_neg (List.cons_ne_nil t ss), ih (List.cons_ne_nil t ss) h.2, pathText_cons, hj]
      simp only [List.append_assoc]

/-- A rooted path of settled segments, and of empty ones, stays as it is. -/
theorem rooted_pathOf {ss : List (List Char)} (h : ∀ s ∈ ss, SettledOrEmpty s) :
    rooted .special (pathOf ss) = pathOf ss := by
  by_cases hne : ss = []
  · rw [hne]
    rfl
  have hslash : ∀ c ∈ join ['/'] ss, (if c = '\\' then '/' else c) = c := by
    intro c hc
    refine if_neg fun he => ?_
    obtain hc | ⟨s, hs, hc⟩ := mem_join hc
    · exact absurd (hc.symm.trans he) (by decide)
    · exact ((h s hs).kept c hc).2.2 he
  have hsplit : segments .special (join ['/'] ss) = ss := by
    rw [segments, if_neg (by decide), List.map_congr_left hslash, List.map_id']
    exact split_join hne fun s hs => (h s hs).slash
  have hroot : rooted .special (pathOf ss) = resolve false [] (segments .special (join ['/'] ss)) := rfl
  rw [hroot, hsplit, resolve_of_settled hne h]
  rfl

theorem finish_of_path {read : List Char → List Char} {path : List Char}
    (hp : ∀ c ∈ path, c ≠ '?' ∧ c ≠ '#') (query : Option (List Char)) :
    finish read (path ++ queryText query) = ⟨read path, query.map (before '#')⟩ := by
  have hstop : ∀ c ∈ path, (!(c == '?' || c == '#')) = true := by
    intro c hc
    simp [hp c hc]
  rw [finish, List.takeWhile_append_of_pos hstop, List.dropWhile_append_of_pos hstop]
  cases query <;> simp [queryText]

/-! ### Authorities -/

theorem checkPort_eq_nil {s t : List Char} (h : checkPort s = .ok t) (hs : '/' ∉ s ∧ '\\' ∉ s) :
    t = [] := by
  simp only [checkPort] at h
  split at h
  · contradiction
  · split at h
    · cases h
      rfl
    · next c rest he =>
      have hc : c ∈ s := (List.dropWhile_sublist _).subset (he ▸ List.mem_cons_self)
      split at h
      · next hslash =>
        obtain rfl | rfl := hslash
        · exact absurd hc hs.1
        · exact absurd hc hs.2
      · contradiction

theorem subset_of_splitUser {s user hostPort : List Char} {more : Bool}
    (h : splitUser s more = .ok (user, hostPort)) : hostPort ⊆ s := by
  simp only [splitUser, cutLast?] at h
  intro c hc
  split at h
  · cases h
    exact hc
  · next hcut =>
    split at h
    · contradiction
    · cases h
      split at hcut
      · cases hcut
        exact List.mem_reverse.1 ((List.takeWhile_sublist _).subset (List.mem_reverse.1 hc))
      · contradiction

theorem afterHost_eq_nil {s t : List Char} (h : afterHost s = .ok t) (hs : '/' ∉ s ∧ '\\' ∉ s) :
    t = [] := by
  unfold afterHost at h
  split at h
  · exact checkPort_eq_nil h (hs.imp (mt (List.mem_cons_of_mem _)) (mt (List.mem_cons_of_mem _)))
  · cases h
    rfl

/-- No part of an authority without slashes belongs to the path. -/
theorem checkAuthority_eq_nil {special more : Bool} {s t : List Char}
    (h : checkAuthority special s more = .ok t) (hs : '/' ∉ s ∧ '\\' ∉ s) : t = [] := by
  obtain ⟨⟨user, hostPort⟩, hu, h⟩ := bind_eq_ok.1 h
  obtain ⟨⟨⟩, -, h⟩ := bind_eq_ok.1 h
  obtain ⟨path, hp, h⟩ := bind_eq_ok.1 h
  have hsub {c : Char} (hc : c ∉ s) : c ∉ hostPort.drop (hostText false hostPort).length :=
    fun hmem => hc (subset_of_splitUser hu (List.mem_of_mem_drop hmem))
  split at h
  · contradiction
  · cases h
    exact afterHost_eq_nil hp (hs.imp hsub hsub)

/-! ### Reading -/

theorem dropWhile_of_head {p : Char → Bool} {s : List Char} (h : s.head?.any p = false) :
    s.dropWhile p = s := by
  cases s with
  | nil => rfl
  | cons c s => rw [List.dropWhile_cons, if_neg (by simpa using h)]

/-- Cleaning changes nothing if the text neither begins nor ends with a blank or a control, and has no
tab and no line end. -/
theorem cleaned_eq {s : List Char} (hhead : s.head?.any (·.toNat ≤ 0x20) = false)
    (hlast : s.getLast?.any (·.toNat ≤ 0x20) = false)
    (hin : ∀ c ∈ s, c ≠ '\t' ∧ c ≠ '\n' ∧ c ≠ '\r') : cleaned s = s := by
  rw [cleaned, dropWhile_of_head hhead, dropWhile_of_head (by simpa using hlast), List.reverse_reverse,
    List.filter_eq_self]
  intro c hc
  simpa [and_assoc] using hin c hc

variable {ss : List (List Char)} {query : Option (List Char)}

/-- What stands in a query that is read as it is. -/
def IsPlainQuery (query : Option (List Char)) : Prop :=
  ∀ q, query = some q → ∀ c ∈ q, 0x20 < c.toNat ∧ c ≠ '#'

/-- The characters of a path of settled and empty segments. -/
theorem path_cases (h : ∀ s ∈ ss, SettledOrEmpty s) {c : Char} (hc : c ∈ pathOf ss) :
    c ≠ '?' ∧ c ≠ '#' ∧ 0x20 < c.toNat := by
  obtain rfl | ⟨s, hs, hc⟩ := mem_pathOf hc
  · decide
  · obtain ⟨hquery, hhash, -, -, hhigh⟩ := keeps_cases ((h s hs).kept c hc).1
    exact ⟨hquery, hhash, hhigh⟩

theorem high_of_mem (h : ∀ s ∈ ss, SettledOrEmpty s) (hq : IsPlainQuery query) {c : Char}
    (hc : c ∈ pathOf ss ++ queryText query) : 0x20 < c.toNat := by
  obtain hc | hc := List.mem_append.1 hc
  · exact (path_cases h hc).2.2
  · cases query with
    | none => contradiction
    | some q =>
      obtain rfl | hc := List.mem_cons.1 hc
      · decide
      · exact (hq q rfl c hc).1

theorem IsPlainQuery.before (hq : IsPlainQuery query) : query.map (before '#') = query := by
  cases query with
  | none => rfl
  | some q => exact congrArg some (before_of_notMem fun hm => (hq q rfl _ hm).2 rfl)

theorem finish_pathOf (h : ∀ s ∈ ss, SettledOrEmpty s) (query : Option (List Char)) :
    finish (rooted .special) (pathOf ss ++ queryText query) = ⟨pathOf ss, query.map (before '#')⟩ := by
  rw [finish_of_path fun c hc => ⟨(path_cases h hc).1, (path_cases h hc).2.1⟩, rooted_pathOf h]

/-- A path begins with one slash. -/
theorem readRelative_pathOf (h : ∀ s ∈ ss, IsSettled s) (query : Option (List Char)) :
    readRelative (pathOf ss ++ queryText query) =
      .ok (finish (rooted .special) (pathOf ss ++ queryText query)) := by
  have hstop {c : Char} {rest : List Char} (hc : isSlash .special c = false) :
      readRelative ('/' :: c :: rest) = .ok (finish (rooted .special) ('/' :: c :: rest)) := by
    rw [readRelative, hc, Bool.and_false, if_neg Bool.false_ne_true]
  cases ss with
  | nil =>
    cases query with
    | none => rfl
    | some q => exact hstop (by decide)
  | cons s ss =>
    have hs := h s List.mem_cons_self
    obtain ⟨c, cs, rfl⟩ := List.exists_cons_of_ne_nil hs.nonempty
    obtain ⟨-, hslash, hback⟩ := hs.kept c List.mem_cons_self
    have hc : isSlash .special c = false := by simp [isSlash, hslash, hback]
    cases ss with
    | nil => exact hstop hc
    | cons t ss => exact hstop hc

theorem getLast?_any_low (h : ∀ s ∈ ss, SettledOrEmpty s) (hq : IsPlainQuery query)
    (front : List Char) :
    (front ++ (pathOf ss ++ queryText query)).getLast?.any (·.toNat ≤ 0x20) = false := by
  have hne : pathOf ss ++ queryText query ≠ [] := List.cons_ne_nil _ _
  rw [List.getLast?_append, List.getLast?_eq_some_getLast hne, Option.some_or, Option.any_some,
    decide_eq_false_iff_not, Nat.not_le]
  exact high_of_mem h hq (List.getLast_mem hne)

theorem ne_of_high {c : Char} (h : 0x20 < c.toNat) : c ≠ '\t' ∧ c ≠ '\n' ∧ c ≠ '\r' := by
  refine ⟨?_, ?_, ?_⟩ <;> rintro rfl <;> revert h <;> decide

/-- A path of settled segments is read as it is. -/
theorem read_pathOf (h : ∀ s ∈ ss, IsSettled s) (hq : IsPlainQuery query) :
    read true (pathOf ss ++ queryText query) = .ok ⟨pathOf ss, query⟩ := by
  have hss : ∀ s ∈ ss, SettledOrEmpty s := fun s hs => .inr (h s hs)
  have hclean : cleaned (pathOf ss ++ queryText query) = pathOf ss ++ queryText query :=
    cleaned_eq rfl (getLast?_any_low hss hq []) fun c hc => ne_of_high (high_of_mem hss hq hc)
  have hscheme : scheme? (pathOf ss ++ queryText query) = none := rfl
  rw [read, hclean, hscheme]
  simp only [if_true, readRelative_pathOf h, finish_pathOf hss, hq.before]

/-- What stands before the path of a URL with a host. -/
def originText (secure : Bool) (host : List Char) : List Char :=
  (if secure then "https".toList else "http".toList) ++ "://".toList ++ host

/-- A host between two slashes and a path that is cut off where it should be. -/
structure IsPlainHost (host : List Char) : Prop where
  nonempty : host ≠ []
  chars : ∀ c ∈ host, c ∉ "/\\?#\t\n\r".toList

theorem scheme?_origin (secure : Bool) (host tail : List Char) :
    scheme? (originText secure host ++ tail) =
      some (if secure then "https".toList else "http".toList, '/' :: '/' :: (host ++ tail)) := by
  cases secure <;> rfl

theorem readScheme_origin {secure : Bool} {host : List Char} (hh : IsPlainHost host)
    (tail : List Char) :
    readScheme false (if secure then "https".toList else "http".toList)
      ('/' :: '/' :: (host ++ tail)) = afterSlashes .special (host ++ tail) := by
  obtain ⟨c, cs, rfl⟩ := List.exists_cons_of_ne_nil hh.nonempty
  have hc := hh.chars c List.mem_cons_self
  have hslash : isSlash .special c = false := by
    simp only [isSlash]
    simp_all
  have hkind : schemeKind (if secure then "https".toList else "http".toList) = .special := by
    cases secure <;> rfl
  have hdrop : ('/' :: '/' :: (c :: cs ++ tail)).dropWhile (isSlash .special) = c :: cs ++ tail :=
    dropWhile_of_head (s := c :: cs ++ tail) (by simp [hslash])
  rw [readScheme, hkind, hdrop]
  simp

/-- Whether a character stands before the path of a URL with a host. -/
def inHost (c : Char) : Bool := !(isSlash .special c || c == '?' || c == '#')

theorem span_queryText {p : Char → Bool} (hp : p '?' = false) (s : List Char) (query : Option (List Char)) :
    (s ++ queryText query).takeWhile p = s.takeWhile p ∧
      (s ++ queryText query).dropWhile p = s.dropWhile p ++ queryText query := by
  induction s with
  | nil => cases query <;> simp [queryText, hp]
  | cons c s ih =>
    by_cases hc : p c = true
    · simp [hc, ih]
    · simp [hc]

/-- The path of a URL does not depend on the query behind it. -/
theorem afterSlashes_queryText (hs : '?' ∉ s ∧ '#' ∉ s) (query : Option (List Char)) :
    afterSlashes .special (s ++ queryText query) =
      (checkAuthority true (s.takeWhile inHost) (!(s.dropWhile inHost ++ queryText query).isEmpty)).map
        fun _ => ⟨rooted .special (s.dropWhile inHost), query.map (before '#')⟩ := by
  obtain ⟨htake, hdrop⟩ := span_queryText (p := inHost) (by decide) s query
  have hhost : '/' ∉ s.takeWhile inHost ∧ '\\' ∉ s.takeWhile inHost := by
    constructor <;> exact fun hc => absurd (List.all_eq_true.1 List.all_takeWhile _ hc) (by decide)
  have hpath : ∀ c ∈ s.dropWhile inHost, c ≠ '?' ∧ c ≠ '#' := by
    intro c hc
    have hmem := (List.dropWhile_sublist _).subset hc
    exact ⟨fun he => hs.1 (he ▸ hmem), fun he => hs.2 (he ▸ hmem)⟩
  have hbody : afterSlashes .special (s ++ queryText query) = (checkAuthority true
      ((s ++ queryText query).takeWhile inHost) (!((s ++ queryText query).dropWhile inHost).isEmpty)).bind
        fun glued => .ok (finish (fun p => if SchemeKind.special = .other ∧ p = [] then [] else rooted .special p)
          (glued ++ (s ++ queryText query).dropWhile inHost)) := rfl
  rw [hbody, htake, hdrop]
  cases hg : checkAuthority true (s.takeWhile inHost) (!(s.dropWhile inHost ++ queryText query).isEmpty) with
  | error fault => rfl
  | ok glued =>
    rw [checkAuthority_eq_nil hg hhost]
    exact congrArg Except.ok ((finish_of_path hpath query).trans (by simp))

theorem afterSlashes_pathOf {host : List Char} (h : ∀ s ∈ ss, SettledOrEmpty s)
    (hq : IsPlainQuery query) (hh : IsPlainHost host) :
    afterSlashes .special (host ++ (pathOf ss ++ queryText query)) =
      (checkAuthority true host true).map fun _ => ⟨pathOf ss, query⟩ := by
  have hhost : ∀ c ∈ host, inHost c = true := by
    intro c hc
    have hmem := hh.chars c hc
    simp only [inHost, isSlash]
    simp_all
  have hchars : '?' ∉ host ++ pathOf ss ∧ '#' ∉ host ++ pathOf ss := by
    constructor <;> refine fun hc => (List.mem_append.1 hc).elim (fun hc => hh.chars _ hc (by decide)) fun hc => ?_
    · exact (path_cases h hc).1 rfl
    · exact (path_cases h hc).2.1 rfl
  have htake : (host ++ pathOf ss).takeWhile inHost = host :=
    (List.takeWhile_append_of_pos hhost).trans (List.append_nil host)
  have hdrop : (host ++ pathOf ss).dropWhile inHost = pathOf ss := List.dropWhile_append_of_pos hhost
  rw [← List.append_assoc, afterSlashes_queryText hchars, htake, hdrop, rooted_pathOf h, hq.before]
  rfl

/-- Of a URL with a host that is accepted, the path of settled segments, and of empty ones, is read as it is. -/
theorem read_origin {secure : Bool} {host : List Char} (h : ∀ s ∈ ss, SettledOrEmpty s)
    (hq : IsPlainQuery query) (hh : IsPlainHost host) :
    read false (originText secure host ++ (pathOf ss ++ queryText query)) =
      (checkAuthority true host true).map fun _ => ⟨pathOf ss, query⟩ := by
  have hscheme : ∀ c ∈ (if secure then "https".toList else "http".toList) ++ "://".toList,
      c ≠ '\t' ∧ c ≠ '\n' ∧ c ≠ '\r' := by
    cases secure <;> exact forall_mem_of_all (by decide)
  have hin : ∀ c ∈ originText secure host ++ (pathOf ss ++ queryText query),
      c ≠ '\t' ∧ c ≠ '\n' ∧ c ≠ '\r' := by
    intro c hc
    obtain hc | hc := List.mem_append.1 hc
    · obtain hc | hc := List.mem_append.1 hc
      · exact hscheme c hc
      · have hmem := hh.chars c hc
        simp_all
    · exact ne_of_high (high_of_mem h hq hc)
  have hclean : cleaned (originText secure host ++ (pathOf ss ++ queryText query)) = _ :=
    cleaned_eq (by cases secure <;> rfl) (getLast?_any_low h hq _) hin
  rw [read, hclean, scheme?_origin]
  simp only [readScheme_origin hh]
  exact afterSlashes_pathOf h hq hh

/-! ### Verbs -/

theorem utf8_cons {c : Char} (hc : c.toNat < 0x80) (s : List Char) : utf8 (c :: s) = c.toNat :: utf8 s := by
  rw [utf8, List.flatMap_cons, utf8Char, if_pos hc]
  rfl

theorem percentDecode_cons {b : Nat} (hb : b ≠ 0x25) (bs : List Nat) :
    percentDecode (b :: bs) = b :: percentDecode bs := by
  rw [percentDecode]
  rintro x y s rfl
  contradiction

theorem decodeLossy_cons {b : Nat} (hb : b < 0x80) (bs : List Nat) :
    decodeLossy (b :: bs) = Char.ofNat b :: decodeLossy bs := by
  rw [decodeLossy, decodeLossy.go, front, if_pos hb]
  rfl

/-- A word of ASCII characters without plus and percent signs is read as it is. -/
theorem decodeWord_of_plain {s : List Char} (h : ∀ c ∈ s, c.toNat < 128 ∧ c ≠ '+' ∧ c ≠ '%') :
    decodeWord s = s := by
  have hplus : s.map (fun c => if c = '+' then ' ' else c) = s :=
    (List.map_congr_left fun c hc => if_neg (h c hc).2.1).trans (List.map_id' s)
  rw [decodeWord, hplus]
  clear hplus
  induction s with
  | nil => rfl
  | cons c s ih =>
    obtain ⟨⟨hc, -, hp⟩, hs⟩ := List.forall_mem_cons.1 h
    have hn : c.toNat ≠ 0x25 := fun he => hp (Char.toNat_inj.1 he)
    rw [utf8_cons hc, percentDecode_cons hn, decodeLossy_cons hc, Char.ofNat_toNat, ih hs]

/-- A query of one name and its value is read as it is. -/
theorem pairs_pair {name v : List Char} (h : ∀ c ∈ name ++ v, c.toNat < 128 ∧ c ∉ "&=+%".toList) :
    pairs (name ++ '=' :: v) = [(name, v)] := by
  have hword : ∀ s ⊆ name ++ v, decodeWord s = s := by
    intro s hs
    refine decodeWord_of_plain fun c hc => ⟨(h c (hs hc)).1, ?_, ?_⟩ <;> rintro rfl <;>
      exact (h _ (hs hc)).2 (by decide)
  have hamp : '&' ∉ name ++ '=' :: v := by
    intro hc
    obtain hc | hc := List.mem_append.1 hc
    · exact (h _ (List.mem_append_left _ hc)).2 (by decide)
    · exact (h _ (List.mem_append_right _ ((List.mem_cons.1 hc).resolve_left (by decide)))).2 (by decide)
  have heq : '=' ∉ name := fun hc => (h _ (List.mem_append_left _ hc)).2 (by decide)
  simp [pairs, split_of_notMem hamp, cut?_append_cons heq, hword name, hword v]

theorem value?_of_plain {path name v : List Char}
    (h : ∀ c ∈ name ++ v, c.toNat < 128 ∧ c ∉ "&=+%".toList) :
    value? ⟨path, some (name ++ '=' :: v)⟩ name = some v := by
  simp [value?, pairs_pair h]

end Address
end MockRedirect
