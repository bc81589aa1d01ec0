import MockRedirect.Proofs.Cut
import MockRedirect.Proofs.Offset
import MockRedirect.Template.Bytewise
/-! Literals, values, fields and commas are found at their byte offsets. The scanners on bytes drop the fields and
commas that the scanners on characters drop, whatever characters stand between them. -/
namespace MockRedirect.Template.Bytewise
open Document Text

variable {b g out r rest s t u v : List Char} {c : Char} {i n : Nat} {k : Kept}

/-! ### Literals -/

theorem literal_ignores {x : Nat} (hslash : x ≠ '\\'.toNat) (hquote : x ≠ '"'.toNat) : (literal t).Ignores x := by
  intro i st hbyte
  dsimp only [literal] at hbyte ⊢
  rw [byte_eq_pure_iff.2 hbyte, pure_bind, if_neg hslash, if_neg hquote]

theorem literal_high {x : Nat} (hx : 0x80 ≤ x) : (literal t).Ignores x := by
  refine literal_ignores ?_ ?_ <;> rintro rfl <;> contradiction

theorem literal_escape (h : byte? t i = some '\\'.toNat) : (literal t).round i () = pure (.next (i + 2) ()) := by
  dsimp only [literal]
  rw [byte_eq_pure_iff.2 h, pure_bind, if_pos rfl]

theorem literal_quote (h : byte? t i = some '"'.toNat) : (literal t).round i () = pure (.done (i + 1)) := by
  dsimp only [literal]
  rw [byte_eq_pure_iff.2 h, pure_bind, if_neg (by decide), if_pos rfl]

/-- The inside of a literal is passed over, also where a backslash takes only the first byte of a character along. -/
theorem literal_body (hb : IsBody b) (h : At t i (b ++ s)) :
    (literal t).run i () = (literal t).run (i + size b) () := by
  induction hb generalizing i with
  | nil => rfl
  | escape c _ ih =>
    have hnext := h.ascii (by decide)
    -- the loop may now be inside of `c`, whose other bytes are neither quotes nor backslashes
    rw [Loop.run_next h.lt (literal_escape (h.byte?_ascii (by decide))),
      Loop.run_inside (l := literal t) hnext fun _ => literal_high, ih hnext.cons, size_ascii (by decide), size_cons]
    congr 1
    omega
  | @char c hquote hslash _ _ ih =>
    have hc : ∀ x ∈ utf8Char c, (literal t).Ignores x := fun x hx =>
      literal_ignores (ne_of_mem_utf8Char hx (by decide) hslash) (ne_of_mem_utf8Char hx (by decide) hquote)
    rw [Loop.run_char (l := literal t) h hc, ih h.cons, size_cons]
    congr 1
    omega

theorem literalEnd_closed (hb : IsBody b) (h : At t i ('"' :: (b ++ '"' :: s))) :
    literalEnd t i = pure (i + size ('"' :: (b ++ ['"']))) := by
  have hbody := h.ascii (by decide)
  have hquote := hbody.append
  rw [literalEnd, literal_body hb hbody, Loop.run_done hquote.lt (literal_quote (hquote.byte?_ascii (by decide))),
    size_ascii (by decide), size_append, size_ascii (by decide)]
  congr 1
  simp only [size_nil]
  omega

example : literalEnd ['"', '\\', 'é', '"', 'x'] 0 = pure 5 := literalEnd_closed (.escape 'é' .nil) (At.start _)

/-- A literal that is never closed reaches to the end of the text, also if a backslash stands there. -/
theorem literalEnd_unclosed (hb : IsUnclosed b) (h : At t i ('"' :: b)) :
    literalEnd t i = pure (i + size ('"' :: b)) := by
  have hsize := h.size_eq
  have hbody := h.ascii (by decide)
  rw [← hsize]
  obtain hb | ⟨b, hb, rfl⟩ := hb
  · have hend : At t (i + 1) (b ++ []) := by rwa [List.append_nil]
    rw [size_ascii (by decide)] at hsize
    rw [literalEnd, literal_body hb hend, Loop.run_end (l := literal t) (by dsimp only [literal]; omega)]
    rfl
  · have hslash := hbody.append
    have hlast := hslash.size_eq
    rw [size_ascii (by decide), size_nil] at hlast
    rw [literalEnd, literal_body hb hbody, Loop.run_next hslash.lt (literal_escape (hslash.byte?_ascii (by decide))),
      Loop.run_end (l := literal t) (by dsimp only [literal]; omega)]
    rfl

/-- A text in front of another one is all that a literal takes of both. -/
def Reaches (b s : List Char) : Prop := literalLength (b ++ s) = b.length

theorem exists_reaches (s : List Char) : ∃ b r, s = b ++ r ∧ Reaches b r := by
  obtain ⟨b, r, rfl, hb⟩ | hb := literal_cases s
  · refine ⟨b ++ ['"'], r, by simp, ?_⟩
    rw [Reaches, List.append_assoc, List.singleton_append, literalLength_body hb, List.length_append]
    rfl
  · exact ⟨s, [], by simp, by rw [Reaches, List.append_nil, literalLength_unclosed hb]⟩

theorem literalEnd_reaches (hb : Reaches b s) (h : At t i ('"' :: (b ++ s))) :
    literalEnd t i = pure (i + size ('"' :: b)) := by
  unfold Reaches at hb
  obtain ⟨b', r, htext, hb'⟩ | hb' := literal_cases (b ++ s)
  · rw [htext, literalLength_body hb'] at hb
    have hlength : (b' ++ ['"']).length = b.length := by rw [← hb, List.length_append]; rfl
    obtain ⟨rfl, rfl⟩ := List.append_inj (show b' ++ ['"'] ++ r = b ++ s by simp [htext]) hlength
    exact literalEnd_closed hb' (by simpa using h)
  · have hs : s = [] := by
      have hlength := literalLength_unclosed hb'
      rw [hb, List.length_append] at hlength
      exact List.length_eq_zero_iff.1 (by omega)
    rw [hs, List.append_nil] at hb' h
    exact literalEnd_unclosed hb' h

/-! ### Blanks -/

theorem isBlankByte_toNat (c : Char) : isBlankByte c.toNat = isAsciiBlank c := by
  simp [isBlankByte, isAsciiBlank, Char.toNat_inj, Bool.beq_eq_decide_eq, eq_comm, Bool.or_assoc]

theorem isBlankByte_high {x : Nat} (hx : 0x80 ≤ x) : isBlankByte x = false := by
  simp only [isBlankByte, List.any_cons, List.any_nil, Bool.or_false, Bool.or_eq_false_iff, decide_eq_false_iff_not]
  refine ⟨?_, ?_, ?_, ?_, ?_⟩ <;> rintro rfl <;> contradiction

theorem isBlankByte_of_mem {x : Nat} (hx : x ∈ utf8Char c) (hc : isAsciiBlank c = false) : isBlankByte x = false := by
  obtain rfl | hhigh := mem_utf8Char hx
  · rw [isBlankByte_toNat, hc]
  · exact isBlankByte_high hhigh

theorem toNat_lt_of_isAsciiBlank (hc : isAsciiBlank c = true) : c.toNat < 0x80 := by
  refine Nat.lt_of_not_le fun hhigh => ?_
  rw [← isBlankByte_toNat, isBlankByte_high hhigh] at hc
  contradiction

theorem blanks_round {x : Nat} (h : byte? t i = some x) :
    (blanks t).round i () = pure (if isBlankByte x then .next (i + 1) () else .done i) := by
  dsimp only [blanks]
  rw [byte_eq_pure_iff.2 h, pure_bind]
  split <;> rfl

theorem blanksEnd_eq (hg : IsAsciiBlank g) (hs : ∀ c ∈ s.head?, isAsciiBlank c = false) (h : At t i (g ++ s)) :
    blanksEnd t i = pure (i + size g) := by
  unfold blanksEnd
  induction g generalizing i with
  | nil =>
    cases s with
    | nil =>
      have hsize := h.size_eq
      rw [List.append_nil] at hsize
      rw [Loop.run_end (l := blanks t) (by dsimp only [blanks]; exact Nat.le_of_eq hsize)]
      rfl
    | cons c s =>
      obtain ⟨x, hx, hbyte⟩ := h.exists_byte?
      have hround := blanks_round hbyte
      rw [isBlankByte_of_mem hx (hs c rfl)] at hround
      exact Loop.run_done h.lt hround
  | cons c g ih =>
    have hc := hg c List.mem_cons_self
    have hascii := toNat_lt_of_isAsciiBlank hc
    have hround := blanks_round (h.byte?_ascii hascii)
    rw [isBlankByte_toNat, hc] at hround
    rw [Loop.run_next h.lt hround, ih (fun d hd => hg d (List.mem_cons_of_mem c hd)) (h.ascii hascii),
      size_ascii hascii]
    congr 1
    omega

/-! ### Values -/

theorem container_ignores {x : Nat} (hquote : x ≠ '"'.toNat) (hopen : ¬(x = '\x7b'.toNat ∨ x = '['.toNat))
    (hclose : ¬(x = '\x7d'.toNat ∨ x = ']'.toNat)) : (container t).Ignores x := by
  intro i st hbyte
  dsimp only [container] at hbyte ⊢
  rw [byte_eq_pure_iff.2 hbyte, pure_bind, if_neg hquote, if_neg hopen, if_neg hclose]

theorem container_quote (h : byte? t i = some '"'.toNat) {stop : Nat} (hend : literalEnd t i = pure stop)
    (depth : Nat) : (container t).round i depth = pure (.next stop depth) := by
  dsimp only [container]
  rw [byte_eq_pure_iff.2 h, pure_bind, if_pos rfl, hend, pure_bind]

theorem container_opening (hc : isOpening c = true) (h : byte? t i = some c.toNat) (depth : Nat) :
    (container t).round i depth = pure (.next (i + 1) (depth + 1)) := by
  dsimp only [container]
  rw [byte_eq_pure_iff.2 h, pure_bind]
  simp only [isOpening, Bool.or_eq_true, beq_iff_eq] at hc
  obtain rfl | rfl := hc <;> rfl

theorem container_closing (hc : isClosing c = true) (h : byte? t i = some c.toNat) (depth : Nat) :
    (container t).round i depth = pure (if depth ≤ 1 then .done (i + 1) else .next (i + 1) (depth - 1)) := by
  have hdepth : depth - 1 = 0 ↔ depth ≤ 1 := by omega
  dsimp only [container]
  rw [byte_eq_pure_iff.2 h, pure_bind]
  simp only [isClosing, Bool.or_eq_true, beq_iff_eq] at hc
  obtain rfl | rfl := hc
  all_goals
    rw [if_neg (by decide), if_neg (by decide), if_pos (by decide)]
    simp only [hdepth]
    split <;> rfl

theorem toNat_lt_of_isOpening (hc : isOpening c = true) : c.toNat < 0x80 := by
  simp only [isOpening, Bool.or_eq_true, beq_iff_eq] at hc
  obtain rfl | rfl := hc <;> decide

theorem toNat_lt_of_isClosing (hc : isClosing c = true) : c.toNat < 0x80 := by
  simp only [isClosing, Bool.or_eq_true, beq_iff_eq] at hc
  obtain rfl | rfl := hc <;> decide

/-- Brackets are counted up to the end of the outermost container. -/
theorem container_nested (hv : Nested n v rest) (h : At t i (v ++ rest)) :
    (container t).run i n = pure (i + size v) := by
  induction hv generalizing i with
  | opening hc _ ih =>
    have hascii := toNat_lt_of_isOpening hc
    rw [Loop.run_next h.lt (container_opening hc (h.byte?_ascii hascii) _), ih (h.ascii hascii), size_ascii hascii]
    congr 1
    omega
  | closing hc _ ih =>
    have hascii := toNat_lt_of_isClosing hc
    have hround := container_closing hc (h.byte?_ascii hascii)
    rw [Loop.run_next h.lt ((hround _).trans (congrArg pure (if_neg (by omega)))), Nat.add_sub_assoc (by decide),
      ih (h.ascii hascii), size_ascii hascii]
    congr 1
    omega
  | last hc hn =>
    have hascii := toNat_lt_of_isClosing hc
    have hround := container_closing hc (h.byte?_ascii hascii)
    rw [Loop.run_done h.lt ((hround _).trans (congrArg pure (if_pos hn))), size_ascii hascii, size_nil]
  | @literal n b s rest hb _ ih =>
    have hopen : At t i ('"' :: (b ++ '"' :: (s ++ rest))) := by simpa using h
    have hrest : At t (i + size ('"' :: (b ++ ['"']))) (s ++ rest) :=
      (show At t i (('"' :: (b ++ ['"'])) ++ (s ++ rest)) by simpa using h).append
    rw [Loop.run_next h.lt (container_quote (hopen.byte?_ascii (by decide)) (literalEnd_closed hb hopen) _), ih hrest]
    congr 1
    simp only [size_cons, size_append, size_nil]
    omega
  | @unclosed n b hb =>
    rw [List.append_nil] at h
    rw [Loop.run_next h.lt (container_quote (h.byte?_ascii (by decide)) (literalEnd_unclosed hb h) _),
      Loop.run_end (l := container t) (Nat.le_of_eq h.size_eq)]
    exact congrArg pure h.size_eq
  | @char n c s rest hc _ ih =>
    obtain ⟨hquote, hbrace, hbracket, hbrace', hbracket'⟩ := hc
    have hignored : ∀ x ∈ utf8Char c, (container t).Ignores x := fun x hx =>
      container_ignores (ne_of_mem_utf8Char hx (by decide) hquote)
        (not_or.2 ⟨ne_of_mem_utf8Char hx (by decide) hbrace, ne_of_mem_utf8Char hx (by decide) hbracket⟩)
        (not_or.2 ⟨ne_of_mem_utf8Char hx (by decide) hbrace', ne_of_mem_utf8Char hx (by decide) hbracket'⟩)
    rw [Loop.run_char (l := container t) h hignored, ih h.cons, size_cons]
    congr 1
    omega
  | done =>
    have hsize : size t = i := h.size_eq
    rw [Loop.run_end (l := container t) (Nat.le_of_eq hsize)]
    exact congrArg pure hsize

theorem endsScalar_toNat (c : Char) : endsScalar c.toNat = (c == ',' || isClosing c) := by
  simp [endsScalar, isClosing, Char.toNat_inj, Bool.beq_eq_decide_eq, eq_comm]

theorem endsScalar_high {x : Nat} (hx : 0x80 ≤ x) : endsScalar x = false := by
  simp only [endsScalar, List.any_cons, List.any_nil, Bool.or_false, Bool.or_eq_false_iff, decide_eq_false_iff_not]
  refine ⟨?_, ?_, ?_⟩ <;> rintro rfl <;> contradiction

theorem endsScalar_of_mem {x : Nat} (hx : x ∈ utf8Char c) (hc : c ≠ ',' ∧ isClosing c = false) :
    endsScalar x = false := by
  obtain rfl | hhigh := mem_utf8Char hx
  · rw [endsScalar_toNat, hc.2, Bool.or_false, beq_eq_false_iff_ne]
    exact hc.1
  · exact endsScalar_high hhigh

/-- A scalar ends before the first comma or closing bracket, or with the text. -/
theorem findIdx?_endsScalar (hs : ∀ c ∈ s, c ≠ ',' ∧ isClosing c = false)
    (hrest : ∀ c ∈ rest.head?, c = ',' ∨ isClosing c = true) :
    (utf8 (s ++ rest)).findIdx? endsScalar = if rest = [] then none else some (size s) := by
  have hnone : (utf8 s).findIdx? endsScalar = none := by
    refine List.findIdx?_eq_none_iff.2 fun x hx => ?_
    obtain ⟨c, hc, hx⟩ := List.mem_flatMap.1 hx
    exact endsScalar_of_mem hx (hs c hc)
  have happend : utf8 (s ++ rest) = utf8 s ++ utf8 rest := List.flatMap_append
  rw [happend, List.findIdx?_append, hnone, Option.none_or]
  cases rest with
  | nil => rfl
  | cons c rest =>
    have hc := hrest c rfl
    have hascii : c.toNat < 0x80 := by
      obtain rfl | hc := hc
      · decide
      · exact toNat_lt_of_isClosing hc
    have hends : endsScalar c.toNat = true := by
      rw [endsScalar_toNat, Bool.or_eq_true, beq_iff_eq]
      exact hc
    have hbytes : utf8 (c :: rest) = c.toNat :: utf8 rest := by
      rw [utf8, List.flatMap_cons, utf8Char_ascii hascii]
      rfl
    rw [hbytes, List.findIdx?_cons, if_pos hends, if_neg (List.cons_ne_nil c rest)]
    exact congrArg some (Nat.zero_add _)

theorem valueEnd_guessed (hv : Guessed v rest) (h : At t i (v ++ rest)) : valueEnd t i = pure (i + size v) := by
  unfold valueEnd
  cases hv with
  | @literal b rest hb =>
    have hopen : At t i ('"' :: (b ++ '"' :: rest)) := by simpa using h
    rw [if_pos (h.byte?_ascii (by decide)), literalEnd_closed hb hopen]
  | unclosed hb =>
    rw [List.append_nil] at h
    rw [if_pos (h.byte?_ascii (by decide)), literalEnd_unclosed hb h]
  | container hc hnested =>
    have hbyte := h.byte?_ascii (toNat_lt_of_isOpening hc)
    simp only [isOpening, Bool.or_eq_true, beq_iff_eq] at hc
    rw [hbyte, if_neg, if_pos, container_nested hnested h]
    all_goals obtain rfl | rfl := hc <;> decide
  | other hhead hs hrest =>
    have hne (d : Char) (hd : d.toNat < 0x80) (hopen : d = '"' ∨ isOpening d = true) :
        byte? t i ≠ some d.toNat := by
      intro hbyte
      have hd := hhead d ((h.byte?_eq_iff hd).1 hbyte)
      obtain hquote | hopen := hopen
      · exact hd.1 hquote
      · rw [hd.2] at hopen
        contradiction
    rw [if_neg (hne '"' (by decide) (.inl rfl)), if_neg (not_or.2 ⟨hne _ (by decide) (.inr rfl),
      hne _ (by decide) (.inr rfl)⟩), h.drop_utf8, findIdx?_endsScalar hs hrest]
    by_cases hnil : rest = []
    · have hsize := h.size_eq
      rw [hnil, List.append_nil] at hsize
      rw [if_pos hnil, hsize]
    · rw [if_neg hnil]

/-! ### What is kept -/

/-- At an offset, in front of `s`, the loop has settled on keeping `out`. -/
structure Keeps (t : List Char) (k : Kept) (i : Nat) (s out : List Char) : Prop where
  nothing : k.settled = 0 → k.out = []
  pending : ∃ p, At t k.settled (p ++ s) ∧ k.settled + size p = i ∧ k.out ++ p = out

theorem Keeps.start (t : List Char) : Keeps t ⟨[], 0⟩ 0 t [] := ⟨fun _ => rfl, [], At.start t, rfl, rfl⟩

theorem Keeps.at (h : Keeps t k i s out) : At t i s := by
  obtain ⟨p, hp, rfl, -⟩ := h.pending
  exact hp.append

theorem Keeps.pass (h : Keeps t k i (u ++ s) out) : Keeps t k (i + size u) s (out ++ u) := by
  obtain ⟨p, hp, rfl, rfl⟩ := h.pending
  exact ⟨h.nothing, p ++ u, by rwa [List.append_assoc], by rw [size_append, Nat.add_assoc],
    (List.append_assoc ..).symm⟩

theorem Keeps.cons (h : Keeps t k i (c :: s) out) : Keeps t k (i + (utf8Char c).length) s (out ++ [c]) := by
  have hpass := h.pass (u := [c])
  rwa [size_cons, size_nil, Nat.add_zero] at hpass

theorem Keeps.upTo (h : Keeps t k i s out) : k.upTo t i = pure out := by
  obtain ⟨p, hp, rfl, rfl⟩ := h.pending
  rw [Kept.upTo, hp.slice]
  rfl

/-- From here on another text has been kept. -/
theorem Keeps.settle (h : At t i s) (hi : 0 < i) (out : List Char) : Keeps t ⟨out, i⟩ i s out :=
  ⟨fun hzero => absurd hzero (Nat.ne_of_gt hi), [], h, rfl, List.append_nil out⟩

/-- If the text was never settled up to a later offset, all of it is kept. -/
theorem Keeps.eq_text (h : Keeps t k i [] out) (hzero : k.settled = 0) : out = t := by
  obtain ⟨p, ⟨q, hq, hsize⟩, -, rfl⟩ := h.pending
  rw [hzero] at hsize
  rw [size_eq_zero_iff.1 hsize, List.nil_append, List.append_nil] at hq
  rw [h.nothing hzero, hq, List.nil_append]

theorem kept_eq {l : Loop Kept Kept} (hrun : l.run 0 ⟨[], 0⟩ = pure k)
    (h : Keeps l.text k (size l.text) [] out) : kept l = pure out := by
  rw [kept, hrun, pure_bind]
  split
  · next hzero => rw [h.eq_text hzero]
  · exact h.upTo

/-! ### Fields -/

theorem dropComma_eq (out : List Char) : dropComma out = pure (Template.dropComma out.reverse).reverse := by
  obtain ⟨post, hpost, -⟩ := exists_trimEnd out
  have htruncate : truncate out (size (trimEnd out)) = pure (trimEnd out) := by
    have h := truncate_prefix (trimEnd out) post
    rwa [← hpost] at h
  have hend : (trimEnd out).reverse = out.reverse.dropWhile isBlank := List.reverse_reverse _
  rw [dropComma, htruncate, pure_bind, Template.dropComma, ← hend, dropLast?]
  refine congrArg pure ?_
  obtain hnil | ⟨v, c, hlast⟩ := List.eq_nil_or_concat (trimEnd out)
  · rw [hnil]
    rfl
  · rw [hlast, List.concat_eq_append, List.getLast?_append, List.reverse_append, List.dropLast_concat]
    by_cases hc : c = ','
    · subst hc
      simp
    · simp [hc]

theorem fieldEnd_eq {g₁ g₂ : List Char} (hg₁ : IsAsciiBlank g₁) (hg₂ : IsAsciiBlank g₂)
    (hv : Guessed v (g₂ ++ rest)) (hhead : ∀ c ∈ (v ++ (g₂ ++ rest)).head?, isAsciiBlank c = false)
    (hrest : ∀ c ∈ rest.head?, isAsciiBlank c = false)
    (h : At t i (':' :: (g₁ ++ (v ++ (g₂ ++ rest))))) :
    fieldEnd t i = pure (i + size (':' :: (g₁ ++ (v ++ g₂)))) := by
  have hblank := h.ascii (by decide)
  rw [fieldEnd, blanksEnd_eq hg₁ hhead hblank, pure_bind, valueEnd_guessed hv hblank.append, pure_bind,
    blanksEnd_eq hg₂ hrest hblank.append.append, size_ascii (by decide), size_append, size_append]
  congr 1
  omega

variable {drop : List Char → Bool}

theorem fieldLoop_ignores {x : Nat} (hquote : x ≠ '"'.toNat) : (fieldLoop drop t).Ignores x := by
  intro i k hbyte
  dsimp only [fieldLoop] at hbyte ⊢
  rw [byte_eq_pure_iff.2 hbyte, pure_bind, if_pos hquote]

/-- A literal that no colon follows is kept. -/
theorem fieldLoop_no_colon {stop colon : Nat} (h : byte? t i = some '"'.toNat) (hend : literalEnd t i = pure stop)
    (hblank : blanksEnd t stop = pure colon) (hcolon : byte? t colon ≠ some ':'.toNat) :
    (fieldLoop drop t).round i k = pure (.next stop k) := by
  dsimp only [fieldLoop]
  rw [byte_eq_pure_iff.2 h, pure_bind, if_neg (not_not_intro rfl), hend, pure_bind, hblank, pure_bind, if_neg hcolon]

/-- A literal with a colon behind it is sliced without its quotes and looked at. -/
theorem fieldLoop_colon {g₁ r : List Char} (hb : IsBody b) (hg₁ : IsAsciiBlank g₁)
    (h : At t i ('"' :: (b ++ '"' :: (g₁ ++ ':' :: r)))) : (fieldLoop drop t).round i k =
      if drop b then do
        let stop ← fieldEnd t (i + size ('"' :: (b ++ '"' :: g₁)))
        let out ← k.upTo t i
        if byte? t stop = some ','.toNat then pure (.next (stop + 1) ⟨out, stop + 1⟩)
        else return .next stop ⟨← dropComma out, stop⟩
      else pure (.next (i + size ('"' :: (b ++ ['"']))) k) := by
  have hkey := h.ascii (by decide)
  have hblank : At t (i + size ('"' :: (b ++ ['"']))) (g₁ ++ ':' :: r) :=
    (show At t i (('"' :: (b ++ ['"'])) ++ (g₁ ++ ':' :: r)) by simpa using h).append
  have hcolon := hblank.append
  have hhead : ∀ c ∈ (':' :: r).head?, isAsciiBlank c = false := by
    rintro c ⟨⟩
    rfl
  have hstop : i + size ('"' :: (b ++ ['"'])) = i + 1 + size b + 1 := by
    rw [size_ascii (by decide), size_append, size_ascii (by decide), size_nil]
    omega
  have hoffset : i + size ('"' :: (b ++ '"' :: g₁)) = i + size ('"' :: (b ++ ['"'])) + size g₁ := by
    simp only [size_cons, size_append, size_nil]
    omega
  have hslice : slice t (i + 1) (i + 1 + size b) = pure b := hkey.slice
  dsimp only [fieldLoop]
  rw [byte_eq_pure_iff.2 (h.byte?_ascii (by decide)), pure_bind, if_neg (not_not_intro rfl), literalEnd_closed hb h,
    pure_bind, blanksEnd_eq hg₁ hhead hblank, pure_bind, if_pos (hcolon.byte?_ascii (by decide)), hoffset]
  rw [hstop, minus_add, pure_bind, hslice, pure_bind]

/-- A field is passed with the blanks behind it, and what was kept before it is copied. -/
theorem fieldLoop_field {f : List Char} (hf : IsField drop f rest) (h : Keeps t k i (f ++ rest) out) :
    (fieldLoop drop t).round i k =
      if byte? t (i + size f) = some ','.toNat then pure (.next (i + size f + 1) ⟨out, i + size f + 1⟩)
      else return .next (i + size f) ⟨← dropComma out, i + size f⟩ := by
  obtain ⟨b, g₁, g₂, v, g₃, rfl, hb, hdrop, hg₁, hg₂, hg₃, hv, hhead, hrest⟩ := hf.parts
  have hat : At t i ('"' :: (b ++ '"' :: (g₁ ++ ':' :: (g₂ ++ (v ++ (g₃ ++ rest)))))) := by simpa using h.at
  have hcolon : At t (i + size ('"' :: (b ++ '"' :: g₁))) (':' :: (g₂ ++ (v ++ (g₃ ++ rest)))) :=
    (show At t i (('"' :: (b ++ '"' :: g₁)) ++ ':' :: (g₂ ++ (v ++ (g₃ ++ rest)))) by simpa using hat).append
  have hstop : i + size ('"' :: (b ++ '"' :: g₁)) + size (':' :: (g₂ ++ (v ++ g₃))) =
      i + size ('"' :: (b ++ '"' :: (g₁ ++ ':' :: (g₂ ++ (v ++ g₃))))) := by
    simp only [size_cons, size_append]
    omega
  rw [fieldLoop_colon hb hg₁ hat, if_pos hdrop, fieldEnd_eq hg₂ hg₃ hv hhead hrest hcolon, pure_bind, h.upTo,
    pure_bind, hstop]

theorem size_isField_pos {f : List Char} (hf : IsField drop f rest) : 0 < size f :=
  Nat.pos_of_ne_zero fun hzero => List.length_pos_iff.1 hf.pos (size_eq_zero_iff.1 hzero)

/-- The loop cuts what the scanner on characters cuts. Its state says less than the text kept so far: what has been
passed since the last field is sliced only at the next one, or at the end. -/
theorem fieldLoop_cut (hcut : Cut drop out s r) (h : Keeps t k i s out.reverse) :
    ∃ k', (fieldLoop drop t).run i k = pure k' ∧ Keeps t k' (size t) [] r := by
  induction hcut generalizing i k with
  | done =>
    have hend : size t = i := h.at.size_eq
    rw [hend]
    exact ⟨k, Loop.run_end (l := fieldLoop drop t) (Nat.le_of_eq hend) k, h⟩
  | @char out s r c hc _ ih =>
    rw [Loop.run_char (l := fieldLoop drop t) h.at fun x hx =>
      fieldLoop_ignores (ne_of_mem_utf8Char hx (by decide) hc)]
    refine ih ?_
    rw [List.reverse_cons]
    exact h.cons
  | @literal out b s r hb hfield _ ih =>
    have hnext : Keeps t k (i + size ('"' :: (b ++ ['"']))) s (('"' :: (b ++ ['"'])).reverse ++ out).reverse := by
      rw [List.reverse_append, List.reverse_reverse]
      exact (show Keeps t k i (('"' :: (b ++ ['"'])) ++ s) out.reverse by simpa using h).pass
    have hround : (fieldLoop drop t).round i k = pure (.next (i + size ('"' :: (b ++ ['"']))) k) := by
      by_cases hcolon : (s.dropWhile isAsciiBlank).head? = some ':'
      · obtain ⟨g₁, g₂, v, g₃, rest, rfl, hg₁, hg₂, hg₃, hv, hhead, hrest⟩ := exists_value hcolon
        have hdrop : ¬drop b = true := fun hdrop =>
          hfield ⟨_, rest, by simp, ⟨b, g₁, g₂, v, g₃, rfl, hb, hdrop, hg₁, hg₂, hg₃, hv, hhead, hrest⟩⟩
        rw [fieldLoop_colon hb hg₁ h.at, if_neg hdrop]
      · obtain ⟨g, u, rfl, hg, hu⟩ := exists_blank s
        rw [(span_blank hg hu).2] at hcolon
        exact fieldLoop_no_colon (h.at.byte?_ascii (by decide)) (literalEnd_closed hb h.at)
          (blanksEnd_eq hg hu hnext.at) (mt (hnext.at.append.byte?_eq_iff (by decide)).1 hcolon)
    rw [Loop.run_next h.at.lt hround]
    exact ih hnext
  | @unclosed out b hb =>
    have hnext : Keeps t k (i + size ('"' :: b)) [] (out.reverse ++ '"' :: b) :=
      (show Keeps t k i (('"' :: b) ++ []) out.reverse by rwa [List.append_nil]).pass
    have hend : size t = i + size ('"' :: b) := h.at.size_eq
    have hround : (fieldLoop drop t).round i k = pure (.next (i + size ('"' :: b)) k) :=
      fieldLoop_no_colon (h.at.byte?_ascii (by decide)) (literalEnd_unclosed hb h.at)
        (blanksEnd_eq (g := []) (s := []) nofun nofun hnext.at) (mt (hnext.at.byte?_eq_iff (by decide)).1 nofun)
    rw [Loop.run_next h.at.lt hround, Loop.run_end (l := fieldLoop drop t) (Nat.le_of_eq hend), hend]
    exact ⟨k, rfl, hnext⟩
  | @field out f s r hf _ ih =>
    have hsize := h.at.append.size_eq
    have hpos := size_isField_pos hf
    have hcomma : At t (i + size f) (',' :: s) := h.at.append
    have hround := fieldLoop_field hf h
    rw [if_pos (hcomma.byte?_ascii (by decide))] at hround
    rw [Loop.run_next (l := fieldLoop drop t) (show i < size t by omega) hround]
    exact ih (Keeps.settle (hcomma.ascii (by decide)) (Nat.succ_pos _) _)
  | @lastField out f s r hf hs _ ih =>
    have hsize := h.at.append.size_eq
    have hpos := size_isField_pos hf
    have hround := fieldLoop_field hf h
    rw [if_neg (mt (h.at.append.byte?_eq_iff (by decide)).1 hs), dropComma_eq, List.reverse_reverse,
      pure_bind] at hround
    rw [Loop.run_next (l := fieldLoop drop t) (show i < size t by omega) hround]
    exact ih (Keeps.settle h.at.append (by omega) _)

theorem stripFields_eq (drop : List Char → Bool) (t : List Char) :
    stripFields drop t = pure (Template.stripFields drop t) := by
  obtain ⟨k, hrun, hkeeps⟩ := fieldLoop_cut (cut_iff.2 rfl) (Keeps.start t)
  exact kept_eq (l := fieldLoop drop t) hrun hkeeps

/-! ### Commas -/

theorem commaLoop_ignores {x : Nat} (hquote : x ≠ '"'.toNat) (hcomma : x ≠ ','.toNat) :
    (commaLoop t).Ignores x := by
  intro i k hbyte
  dsimp only [commaLoop] at hbyte ⊢
  rw [byte_eq_pure_iff.2 hbyte, pure_bind, if_neg hquote, if_neg hcomma]

theorem commaLoop_quote (h : byte? t i = some '"'.toNat) {stop : Nat} (hend : literalEnd t i = pure stop) (k : Kept) :
    (commaLoop t).round i k = pure (.next stop k) := by
  dsimp only [commaLoop]
  rw [byte_eq_pure_iff.2 h, pure_bind, if_pos rfl, hend, pure_bind]

theorem commaLoop_comma (h : Keeps t k i (',' :: s) out) : (commaLoop t).round i k =
    if (s.dropWhile isAsciiBlank).head? = some '\x7d' ∨ (s.dropWhile isAsciiBlank).head? = some ']'
    then pure (.next (i + 1) ⟨out, i + 1⟩) else pure (.next (i + 1) k) := by
  obtain ⟨g, u, rfl, hg, hu⟩ := exists_blank s
  have hblank := h.at.ascii (by decide)
  dsimp only [commaLoop]
  rw [byte_eq_pure_iff.2 (h.at.byte?_ascii (by decide)), pure_bind, if_neg (by decide), if_pos rfl,
    blanksEnd_eq hg hu hblank, pure_bind, (span_blank hg hu).2]
  simp only [hblank.append.byte?_eq_iff (show '\x7d'.toNat < 0x80 by decide),
    hblank.append.byte?_eq_iff (show ']'.toNat < 0x80 by decide)]
  rw [h.upTo, pure_bind]

theorem commaLoop_keeps (h : Keeps t k i s out) :
    ∃ k', (commaLoop t).run i k = pure k' ∧ Keeps t k' (size t) [] (out ++ Template.dropTrailingCommas s) := by
  induction hlength : s.length using Nat.strongRecOn generalizing s i k out with
  | ind n ih =>
    subst hlength
    cases s with
    | nil =>
      have hend : size t = i := h.at.size_eq
      rw [hend]
      exact ⟨k, Loop.run_end (l := commaLoop t) (Nat.le_of_eq hend) k, by rwa [Template.dropTrailingCommas,
        Template.dropTrailingCommas.go, List.append_nil]⟩
    | cons c s =>
      by_cases hquote : c = '"'
      · subst hquote
        obtain ⟨b, s, rfl, hb⟩ := exists_reaches s
        rw [Loop.run_next h.at.lt (commaLoop_quote (h.at.byte?_ascii (by decide)) (literalEnd_reaches hb h.at) k),
          dropTrailingCommas_quote hb, ← List.cons_append, ← List.append_assoc]
        exact ih s.length (by simp only [List.length_cons, List.length_append]; omega)
          (show Keeps t k i (('"' :: b) ++ s) out from h).pass rfl
      · by_cases hcomma : c = ','
        · subst hcomma
          have hround := commaLoop_comma h
          have hnext := h.at.ascii (by decide)
          rw [dropTrailingCommas_comma]
          split
          · next hclosing =>
            rw [if_pos hclosing] at hround
            rw [Loop.run_next h.at.lt hround]
            exact ih s.length (Nat.lt_succ_self _) (Keeps.settle hnext (Nat.succ_pos i) out) rfl
          · next hclosing =>
            rw [if_neg hclosing] at hround
            rw [Loop.run_next h.at.lt hround, List.append_cons]
            exact ih s.length (Nat.lt_succ_self _) h.cons rfl
        · have hignored : ∀ x ∈ utf8Char c, (commaLoop t).Ignores x := fun x hx =>
            commaLoop_ignores (ne_of_mem_utf8Char hx (by decide) hquote) (ne_of_mem_utf8Char hx (by decide) hcomma)
          have hchar : Template.dropTrailingCommas (c :: s) = c :: Template.dropTrailingCommas s :=
            dropTrailingCommas_char hquote hcomma s
          rw [Loop.run_char (l := commaLoop t) h.at hignored, hchar, List.append_cons]
          exact ih s.length (Nat.lt_succ_self _) h.cons rfl

theorem dropTrailingCommas_eq (t : List Char) : dropTrailingCommas t = pure (Template.dropTrailingCommas t) := by
  obtain ⟨k, hrun, hkeeps⟩ := commaLoop_keeps (Keeps.start t)
  exact kept_eq (l := commaLoop t) hrun hkeeps

end MockRedirect.Template.Bytewise
