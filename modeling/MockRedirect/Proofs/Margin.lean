import MockRedirect.Proofs.Query
/-! Blanks around a URL. Those in front of it are cut off when it is read; what is left of those behind it
stands at the end of its query, and an ASCII value is found in the query with or without it. -/
namespace MockRedirect
open Text

/-! ### Decoding -/

namespace Text

theorem le_toNat_ofNat {n : Nat} (hlow : 0x80 ≤ n) (h : n < 0xd800 ∨ 0xdfff < n ∧ n < 0x110000) :
    0x80 ≤ (Char.ofNat n).toNat := by
  have hvalid : n.isValidChar := h
  rw [Char.ofNat, dif_pos hvalid]
  exact hlow

/-- What the first two bytes of a character amount to, by the number of bytes that follow them. -/
theorem lead?_cases {b lo hi more t : Nat} (h : lead? b = some (lo, hi, more)) (hlo : lo ≤ t) (hhi : t ≤ hi) :
    (more = 0 ∧ 0x80 ≤ addTail (leadValue b) t ∧ addTail (leadValue b) t < 0x800) ∨
    (more = 1 ∧ 0x20 ≤ addTail (leadValue b) t ∧ addTail (leadValue b) t < 0x400 ∧
      (addTail (leadValue b) t < 0x360 ∨ 0x37f < addTail (leadValue b) t)) ∨
    (more = 2 ∧ 0x10 ≤ addTail (leadValue b) t ∧ addTail (leadValue b) t < 0x110) := by
  unfold lead? at h
  unfold addTail leadValue
  repeat' split at h
  all_goals first
    | contradiction
    | (obtain ⟨rfl, rfl, rfl⟩ : _ = lo ∧ _ = hi ∧ _ = more := by simpa using h
       split <;> try split
       all_goals omega)

theorem addTail_cases {n t : Nat} (h : isTail t = true) : n * 64 ≤ addTail n t ∧ addTail n t < n * 64 + 64 := by
  have hbounds : 0x80 ≤ t ∧ t ≤ 0xbf := by simpa [isTail] using h
  have heq : addTail n t = n * 64 + (t - 0x80) := rfl
  omega

/-- What begins with a byte that is not ASCII is no ASCII character. -/
theorem high_of_front {b n : Nat} {s : List Nat} {c : Char} (hb : 0x80 ≤ b) (h : front b s = .char c n) :
    0x80 ≤ c.toNat := by
  rw [front, if_neg (by omega)] at h
  split at h
  · contradiction
  · next lo hi more hlead =>
    split at h
    · contradiction
    · next t s =>
      split at h
      · contradiction
      · next hin =>
        have hcases := lead?_cases hlead (t := t) (by omega) (by omega)
        generalize addTail (leadValue b) t = m at h hcases
        simp only at h
        split at h
        · obtain ⟨rfl, -⟩ := Front.char.inj h
          exact le_toNat_ofNat (by omega) (by omega)
        · split at h
          · contradiction
          · next u s =>
            split at h
            · contradiction
            · next hu =>
              have hu' := addTail_cases (n := m) (t := u) (by simpa using hu)
              generalize addTail m u = k at h hu'
              split at h
              · obtain ⟨rfl, -⟩ := Front.char.inj h
                exact le_toNat_ofNat (by omega) (by omega)
              · split at h
                · contradiction
                · next v s =>
                  split at h
                  · next hv =>
                    have hv' := addTail_cases (n := k) hv
                    obtain ⟨rfl, -⟩ := Front.char.inj h
                    exact le_toNat_ofNat (by omega) (by omega)
                  · contradiction

/-- Of a byte that is not ASCII something is left that is not ASCII either. -/
theorem exists_high_decodeLossy {s : List Nat} (h : ∃ b ∈ s, 0x80 ≤ b) :
    ∃ c ∈ decodeLossy s, 0x80 ≤ c.toNat := by
  rw [decodeLossy]
  induction s with
  | nil => simp at h
  | cons b s ih =>
    by_cases hb : b < 0x80
    · have hs : ∃ b ∈ s, 0x80 ≤ b := by
        obtain ⟨d, hd, hlow⟩ := h
        exact ⟨d, (List.mem_cons.1 hd).resolve_left (by omega), hlow⟩
      obtain ⟨c, hc, hhigh⟩ := ih hs
      refine ⟨c, ?_, hhigh⟩
      rw [decodeLossy.go, front, if_pos hb]
      exact List.mem_cons_of_mem _ hc
    · rw [decodeLossy.go]
      split
      · next c n hfront => exact ⟨c, List.mem_cons_self, high_of_front (Nat.le_of_not_lt hb) hfront⟩
      · exact ⟨_, List.mem_cons_self, by decide⟩
      · exact ⟨_, List.mem_cons_self, by decide⟩

theorem hexByte?_of_high {b : Nat} (h : 0x80 ≤ b) : hexByte? b = none := if_neg (by omega)

/-- Such a byte is no part of an escape. -/
theorem exists_high_percentDecode {s : List Nat} (h : ∃ b ∈ s, 0x80 ≤ b) :
    ∃ b ∈ percentDecode s, 0x80 ≤ b := by
  obtain ⟨b, hb, hhigh⟩ := h
  refine ⟨b, ?_, hhigh⟩
  fun_induction percentDecode s with
  | case1 x y s u v hx hy ih =>
    have hne {z w : Nat} (hz : hexByte? z = some w) : b ≠ z := by
      rintro rfl
      simp [hexByte?_of_high hhigh] at hz
    have hb' : b ∈ s := by
      simpa [hne hx, hne hy, show b ≠ 0x25 by omega] using hb
    exact List.mem_cons_of_mem _ (ih hb')
  | case2 x y s _ ih =>
    obtain rfl | hb := List.mem_cons.1 hb
    · contradiction
    · exact List.mem_cons_of_mem _ (ih hb)
  | case3 c s _ ih =>
    obtain rfl | hb := List.mem_cons.1 hb
    · exact List.mem_cons_self
    · exact List.mem_cons_of_mem _ (ih hb)
  | case4 => contradiction

theorem exists_high_utf8 {s : List Char} (h : ∃ c ∈ s, 0x80 ≤ c.toNat) : ∃ b ∈ utf8 s, 0x80 ≤ b := by
  obtain ⟨c, hc, hhigh⟩ := h
  have hchar : ∃ b ∈ utf8Char c, 0x80 ≤ b := by
    simp only [utf8Char, if_neg (Nat.not_lt.2 hhigh)]
    split
    · exact ⟨_, List.mem_cons_self, by omega⟩
    · split
      · exact ⟨_, List.mem_cons_self, by omega⟩
      · exact ⟨_, List.mem_cons_self, by omega⟩
  obtain ⟨b, hb, hlow⟩ := hchar
  exact ⟨b, List.mem_flatMap.2 ⟨c, hc, hb⟩, hlow⟩

/-! ### Blanks -/

/-- A blank that is not cut off with the controls is not ASCII. -/
theorem high_of_isBlank {c : Char} (h : isBlank c = true) (hlow : 0x20 < c.toNat) : 0x80 ≤ c.toNat := by
  simp only [isBlank, Bool.or_eq_true, Bool.and_eq_true, beq_iff_eq, decide_eq_true_eq] at h
  omega

end Text

namespace Address

variable {secure : Bool} {s u post q : List Char} {a : Address}

/-! ### The front -/

theorem isAsciiLetter_of_scheme? {c : Char} {r : List Char × List Char} (h : scheme? (c :: s) = some r) :
    isAsciiLetter c = true := by
  unfold scheme? at h
  dsimp only at h
  split at h
  · split at h
    · next hc => simpa using hc
    · contradiction
  · contradiction

/-- What is read without a base begins with a letter, apart from controls and blanks that are cut off. -/
theorem letter_of_read (h : read false s = .ok a) :
    ∃ c t, s.dropWhile (·.toNat ≤ 0x20) = c :: t ∧ isAsciiLetter c = true := by
  cases hdrop : s.dropWhile (·.toNat ≤ 0x20) with
  | nil =>
    have hclean : cleaned s = [] := by simp [cleaned, hdrop]
    rw [read, hclean] at h
    cases h
  | cons c t =>
    have hc : 0x20 < c.toNat := by
      have hhead := List.head?_dropWhile_not (fun c : Char => decide (c.toNat ≤ 0x20)) s
      rw [hdrop] at hhead
      simpa using hhead
    have hclean : cleaned s = c :: cleanedEnd t := by
      rw [cleaned, hdrop]
      exact cleanedEnd_append_cons (s := []) (by simp) hc t
    refine ⟨c, t, rfl, ?_⟩
    rw [read, hclean] at h
    split at h
    · next hscheme => exact isAsciiLetter_of_scheme? hscheme
    · contradiction

/-- Blanks in front of what is read are all cut off. -/
theorem read_append {pre : List Char} (hpre : ∀ c ∈ pre, isBlank c = true) (h : read false (pre ++ s) = .ok a) :
    read false s = .ok a := by
  have hlow : ∀ c ∈ pre, decide (c.toNat ≤ 0x20) = true := by
    obtain ⟨c, t, hdrop, hletter⟩ := letter_of_read h
    rw [List.dropWhile_append] at hdrop
    split at hdrop
    · next hempty => exact List.dropWhile_eq_nil_iff.1 (List.isEmpty_iff.1 hempty)
    · next hne =>
      obtain ⟨d, r, hd⟩ := List.exists_cons_of_ne_nil (mt List.isEmpty_iff.2 hne)
      have hmem : d ∈ pre := (List.dropWhile_sublist _).subset (hd ▸ List.mem_cons_self)
      rw [hd] at hdrop
      obtain rfl : d = c := (List.cons.inj hdrop).1
      exact absurd (hpre d hmem) (by simp [(plain_cases (letter_cases hletter).2.1).2.2.1])
  have hclean : cleaned (pre ++ s) = cleaned s := by rw [cleaned, List.dropWhile_append_of_pos hlow, cleaned]
  rwa [read, hclean, ← read] at h

/-! ### The end -/

/-- What is left of blanks at the end of a text when it is cleaned: they all go, or else one of them is
not ASCII. -/
structure IsMargin (y : List Char) : Prop where
  blank : ∀ c ∈ y, c.toNat ≤ 0x20 ∨ isBlank c = true
  high : y = [] ∨ ∃ c ∈ y, 0x80 ≤ c.toNat

theorem IsMargin.notMem {y : List Char} (h : IsMargin y) : ∀ c ∈ y, c ∉ "?#&=/\\".toList := by
  have hmarks : ∀ c ∈ "?#&=/\\".toList, ¬(c.toNat ≤ 0x20 ∨ isBlank c = true) := forall_mem_of_all (by decide)
  exact fun c hc hmem => hmarks c hmem (h.blank c hc)

/-- Inside a text no blanks and controls are cut off. -/
theorem exists_filter_isInLine (s : List Char) :
    ∃ y, s.filter isInLine = cleanedEnd s ++ y ∧ ∀ c ∈ y, c.toNat ≤ 0x20 := by
  have hs : (s.reverse.dropWhile (·.toNat ≤ 0x20)).reverse ++
      (s.reverse.takeWhile (·.toNat ≤ 0x20)).reverse = s := by
    rw [← List.reverse_append, List.takeWhile_append_dropWhile, List.reverse_reverse]
  refine ⟨(s.reverse.takeWhile (·.toNat ≤ 0x20)).reverse.filter isInLine, ?_, fun c hc => ?_⟩
  · have hfilter := congrArg (List.filter isInLine) hs
    rw [List.filter_append] at hfilter
    exact hfilter.symm
  · simpa using List.mem_takeWhile_imp (List.mem_reverse.1 (List.mem_filter.1 hc).1)

theorem exists_cleanedEnd (hpost : ∀ c ∈ post, isBlank c = true) (u : List Char) :
    ∃ y, cleanedEnd (u ++ post) = cleanedEnd u ++ y ∧ IsMargin y := by
  by_cases hlow : ∀ c ∈ post, decide (c.toNat ≤ 0x20) = true
  · refine ⟨[], ?_, by simp, .inl rfl⟩
    rw [cleanedEnd, List.reverse_append, List.dropWhile_append_of_pos (by simpa using hlow), List.append_nil,
      cleanedEnd]
  · simp only [not_forall, decide_eq_true_eq, Nat.not_le] at hlow
    obtain ⟨c, hmem, hc⟩ := hlow
    obtain ⟨p, r, rfl⟩ := List.append_of_mem hmem
    obtain ⟨y, hy, hlow⟩ := exists_filter_isInLine u
    obtain ⟨z, hz, hlow'⟩ := exists_filter_isInLine (p ++ c :: r)
    refine ⟨y ++ (p.filter isInLine ++ c :: cleanedEnd r), ?_, fun d hd => ?_, .inr ⟨c, by simp, ?_⟩⟩
    · rw [← List.append_assoc, cleanedEnd_append_high hc, List.filter_append, hy]
      simp
    · obtain hd | hd := List.mem_append.1 hd
      · exact .inl (hlow d hd)
      · rw [← cleanedEnd_append_high hc] at hd
        have hkept : d ∈ (p ++ c :: r).filter isInLine := hz ▸ List.mem_append_left z hd
        exact .inr (hpost d (List.mem_filter.1 hkept).1)
    · exact high_of_isBlank (hpost c hmem) hc

/-! ### Reading -/

/-- A URL that is read with a query has a question mark before any number sign. -/
theorem exists_query_of_afterSlashes (h : afterSlashes .special s = .ok a) (hq : a.query = some q) :
    ∃ v t, s = v ++ '?' :: t ∧ '?' ∉ v ∧ '#' ∉ v := by
  have hhost : '/' ∉ s.takeWhile inHost ∧ '\\' ∉ s.takeWhile inHost := by
    constructor <;> exact fun hc => absurd (List.all_eq_true.1 List.all_takeWhile _ hc) (by decide)
  obtain ⟨glued, hglued, h⟩ := bind_eq_ok.1 h
  have hnil : glued = [] := checkAuthority_eq_nil hglued hhost
  cases h
  rw [hnil, List.nil_append] at hq
  have hrest : ∃ t, (s.dropWhile inHost).dropWhile (fun c => !(c == '?' || c == '#')) = '?' :: t := by
    simp only [finish] at hq
    split at hq
    · next t ht => exact ⟨t, ht⟩
    · contradiction
  obtain ⟨t, ht⟩ := hrest
  have hstop {c : Char} (hc : c = '?' ∨ c = '#') :
      c ∉ s.takeWhile inHost ++ (s.dropWhile inHost).takeWhile (fun c => !(c == '?' || c == '#')) := by
    rw [List.mem_append]
    rintro (hmem | hmem)
    · have hin := List.mem_takeWhile_imp hmem
      obtain rfl | rfl := hc <;> exact absurd hin (by decide)
    · have hin := List.mem_takeWhile_imp hmem
      obtain rfl | rfl := hc <;> simp at hin
  refine ⟨_, t, ?_, hstop (.inl rfl), hstop (.inr rfl)⟩
  rw [List.append_assoc, ← ht, List.takeWhile_append_dropWhile, List.takeWhile_append_dropWhile]

theorem exists_rooted_of_read (h : read false (originText secure s) = .ok a) :
    ∃ w, a.path = rooted .special w := by
  rw [read_originText_cleanedEnd] at h
  obtain ⟨glued, -, h⟩ := bind_eq_ok.1 h
  cases h
  obtain ⟨p, hp, -⟩ := path_finish
    (fun p => if SchemeKind.special = .other ∧ p = [] then [] else rooted .special p)
    (glued ++ ((cleanedEnd s).dropWhile (isSlash .special)).dropWhile inHost)
  exact ⟨p, hp⟩

/-- Blanks behind a URL with a query leave its path as it is, and what is left of them stands at the end of its
query. -/
theorem read_append_blanks (hpost : ∀ c ∈ post, isBlank c = true)
    (h : read false (originText secure (u ++ post)) = .ok a) (hq : a.query = some q) :
    ∃ q₀ y, read false (originText secure u) = .ok ⟨a.path, some q₀⟩ ∧ q = q₀ ++ y ∧ IsMargin y := by
  obtain ⟨y, hy, hmargin⟩ := exists_cleanedEnd hpost u
  have hslash : y.dropWhile (isSlash .special) = y :=
    dropWhile_of_head ((Option.any_eq_false ..).2 fun c hc => by
      have hmem := hmargin.notMem c (List.mem_of_mem_head? hc)
      simp only [isSlash]
      simp_all)
  have hdrop : (cleanedEnd u ++ y).dropWhile (isSlash .special) =
      (cleanedEnd u).dropWhile (isSlash .special) ++ y := by
    rw [List.dropWhile_append]
    split
    · next hempty => rw [hslash, List.isEmpty_iff.1 hempty, List.nil_append]
    · rfl
  rw [read_originText_cleanedEnd, hy, hdrop] at h
  obtain ⟨v, t, ht, hquery, hhash⟩ := exists_query_of_afterSlashes h hq
  have hmark : '?' ∉ y := fun hc => hmargin.notMem _ hc (by decide)
  -- the question mark does not stand in the margin
  obtain ⟨t₀, hfront, rfl⟩ : ∃ t₀, (cleanedEnd u).dropWhile (isSlash .special) = v ++ '?' :: t₀ ∧
      t = t₀ ++ y := by
    obtain ⟨w, -, hw⟩ | ⟨w, hw, htail⟩ := List.append_eq_append_iff.1 ht
    · exact absurd (hw ▸ List.mem_append_right _ List.mem_cons_self) hmark
    · cases w with
      | nil =>
        rw [List.nil_append] at htail
        exact absurd (htail ▸ List.mem_cons_self) hmark
      | cons c w =>
        obtain ⟨rfl, rfl⟩ := List.cons.inj htail
        exact ⟨w, hw, rfl⟩
  have hread (t : List Char) : afterSlashes .special (v ++ '?' :: t) =
      (checkAuthority true (v.takeWhile inHost) true).map
        fun _ => ⟨rooted .special (v.dropWhile inHost), some (before '#' t)⟩ := by
    have hmore : (!(v.dropWhile inHost ++ queryText (some t)).isEmpty) = true := by simp [queryText]
    have hslashes := afterSlashes_queryText ⟨hquery, hhash⟩ (some t)
    rwa [hmore] at hslashes
  rw [ht, hread] at h
  obtain ⟨glued, hglued, rfl⟩ := map_eq_ok.1 h
  have hbase : read false (originText secure u) =
      .ok ⟨rooted .special (v.dropWhile inHost), some (before '#' t₀)⟩ := by
    rw [read_originText_cleanedEnd, hfront, hread, hglued]
    rfl
  cases hq
  by_cases hmem : '#' ∈ t₀
  · obtain ⟨x, z, rfl, hx⟩ := List.eq_append_cons_of_mem hmem
    refine ⟨before '#' (x ++ '#' :: z), [], hbase, ?_, by simp, .inl rfl⟩
    rw [List.append_assoc, List.cons_append, before_append_cons hx, before_append_cons hx, List.append_nil]
  · have hy' : '#' ∉ y := fun hc => hmargin.notMem _ hc (by decide)
    refine ⟨before '#' t₀, y, hbase, ?_, hmargin⟩
    rw [before_append hmem, before_of_notMem hy', before_of_notMem hmem]

/-! ### Values -/

/-- A word with a character that is not ASCII is read as one. -/
theorem exists_high_decodeWord {s : List Char} (h : ∃ c ∈ s, 0x80 ≤ c.toNat) :
    ∃ c ∈ decodeWord s, 0x80 ≤ c.toNat := by
  refine exists_high_decodeLossy (exists_high_percentDecode (exists_high_utf8 ?_))
  obtain ⟨c, hc, hhigh⟩ := h
  refine ⟨c, List.mem_map.2 ⟨c, hc, if_neg ?_⟩, hhigh⟩
  rintro rfl
  exact absurd hhigh (by decide)

/-- A value in a query of one part: what stands behind its equals sign, or nothing. -/
theorem value?_of_notMem {path p name v : List Char} (hamp : '&' ∉ p)
    (h : value? ⟨path, some p⟩ name = some v) : v = [] ∨ ∃ k w, p = k ++ '=' :: w ∧ v = decodeWord w := by
  have hpairs : pairs p = [] ∨ pairs p = [(decodeWord p, [])] ∨
      ∃ k w, p = k ++ '=' :: w ∧ pairs p = [(decodeWord k, decodeWord w)] := by
    rw [pairs, split_of_notMem hamp]
    by_cases hp : p = []
    · simp [hp]
    · cases hcut : cut? '=' p with
      | none => simp [hp, hcut]
      | some kw =>
        obtain ⟨k, w⟩ := kw
        exact .inr (.inr ⟨k, w, (cut?_eq_some hcut).1, by simp [hp, hcut]⟩)
  simp only [value?, Option.bind_eq_bind, Option.bind_some] at h
  obtain hpairs | hpairs | ⟨k, w, hp, hpairs⟩ := hpairs
  · simp [hpairs] at h
  · rw [hpairs] at h
    left
    by_cases hname : decodeWord p = name <;> simp [hname] at h
    exact h
  · rw [hpairs] at h
    right
    refine ⟨k, w, hp, ?_⟩
    by_cases hname : decodeWord k = name <;> simp [hname] at h
    exact h.symm

/-- An ASCII value that is found in a query with a margin is found in the query. -/
theorem value?_of_append {path q y name v : List Char} (hy : IsMargin y) (hne : v ≠ [])
    (hv : ∀ c ∈ v, c.toNat < 128) (h : value? ⟨path, some (q ++ y)⟩ name = some v) :
    value? ⟨path, some q⟩ name = some v := by
  obtain rfl | ⟨c, hc, hhigh⟩ := hy.high
  · rwa [List.append_nil] at h
  have hamp : '&' ∉ y := fun hc => hy.notMem _ hc (by decide)
  have heq : '=' ∉ y := fun hc => hy.notMem _ hc (by decide)
  induction hn : q.length using Nat.strongRecOn generalizing q with
  | ind n ih =>
    by_cases hmem : '&' ∈ q
    · obtain ⟨p, t, rfl, hp⟩ := List.eq_append_cons_of_mem hmem
      have hlt : t.length < n := by
        rw [← hn, List.length_append, List.length_cons]
        omega
      rw [List.append_assoc, List.cons_append, value?_append hp] at h
      rw [value?_append hp]
      cases hfirst : value? ⟨path, some p⟩ name with
      | none =>
        rw [hfirst, Option.none_or] at h
        rw [Option.none_or, ih _ hlt h rfl]
      | some w => rwa [hfirst] at h
    · -- the margin would belong to the value
      have hpart : '&' ∉ q ++ y := fun hc => (List.mem_append.1 hc).elim hmem hamp
      obtain rfl | ⟨k, w, hkw, rfl⟩ := value?_of_notMem hpart h
      · contradiction
      · have hin : c ∈ w := by
          obtain ⟨x, -, hx⟩ | ⟨x, -, hx⟩ := List.append_eq_append_iff.1 hkw
          · exact absurd (hx ▸ List.mem_append_right _ List.mem_cons_self) heq
          · refine (List.mem_cons.1 (hx ▸ List.mem_append_right x hc)).resolve_left ?_
            rintro rfl
            exact heq hc
        obtain ⟨d, hd, hd'⟩ := exists_high_decodeWord ⟨c, hin, hhigh⟩
        exact absurd (hv d hd) (by omega)

end Address
end MockRedirect
