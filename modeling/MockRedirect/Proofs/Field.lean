import MockRedirect.Proofs.Comment
/-! Taking fields out of a text takes the members out of the document that it spells. -/
namespace MockRedirect.Template
open Document Text

/-! ### Lengths of values -/

/-- Neither a quote nor a bracket. -/
def IsInert (c : Char) : Prop := c ≠ '"' ∧ c ≠ '\x7b' ∧ c ≠ '[' ∧ c ≠ '\x7d' ∧ c ≠ ']'

instance (c : Char) : Decidable (IsInert c) := inferInstanceAs (Decidable (_ ∧ _))

theorem isInert_of_isWordChar {c : Char} (h : isWordChar c = true) : IsInert c := by
  refine ⟨?_, ?_, ?_, ?_, ?_⟩ <;> rintro rfl <;> contradiction

theorem isInert_of_isSpace {c : Char} (h : Json.isSpace c = true) : IsInert c := by
  refine ⟨?_, ?_, ?_, ?_, ?_⟩ <;> rintro rfl <;> contradiction

variable {depth : Nat} {b g s t rest : List Char}

theorem containerLength_skip (s rest : List Char) (depth : Nat) :
    containerLength (s ++ rest) depth s.length = s.length + containerLength rest depth 0 := by
  induction s with
  | nil => simp
  | cons c s ih =>
    rw [List.cons_append, List.length_cons, containerLength, ih]
    omega

theorem containerLength_literal (hb : IsBody b) (depth : Nat) (rest : List Char) :
    containerLength ('"' :: (b ++ '"' :: rest)) depth 0 = b.length + 2 + containerLength rest depth 0 := by
  have hskip := containerLength_skip (b ++ ['"']) rest depth
  rw [List.append_assoc, List.singleton_append, List.length_append, List.length_singleton] at hskip
  rw [containerLength, if_pos rfl, literalLength_body hb, hskip]
  omega

theorem containerLength_inert (h : ∀ c ∈ s, IsInert c) (depth : Nat) (rest : List Char) :
    containerLength (s ++ rest) depth 0 = s.length + containerLength rest depth 0 := by
  induction s with
  | nil => simp
  | cons c s ih =>
    rw [List.forall_mem_cons] at h
    obtain ⟨⟨hquote, hbrace, hbracket, hbrace', hbracket'⟩, hs⟩ := h
    rw [List.cons_append, containerLength, if_neg hquote, if_neg (not_or.2 ⟨hbrace, hbracket⟩),
      if_neg (not_or.2 ⟨hbrace', hbracket'⟩), ih hs, List.length_cons]
    omega

theorem containerLength_space (hg : IsSpace g) (depth : Nat) (rest : List Char) :
    containerLength (g ++ rest) depth 0 = g.length + containerLength rest depth 0 :=
  containerLength_inert (fun c hc => isInert_of_isSpace (hg c hc)) depth rest

theorem containerLength_char {c : Char} (hc : IsInert c) (depth : Nat) (rest : List Char) :
    containerLength (c :: rest) depth 0 = containerLength rest depth 0 + 1 := by
  have h := containerLength_inert (s := [c]) (by simpa using hc) depth rest
  rw [Nat.add_comm]
  exact h

/-- What is left to count when a container is closed. -/
def closedLength (rest : List Char) (depth : Nat) : Nat :=
  if depth = 0 then 0 else containerLength rest depth 0

theorem containerLength_close {c : Char} (hc : c = '\x7d' ∨ c = ']') (depth : Nat) (rest : List Char) :
    containerLength (c :: rest) (depth + 1) 0 = closedLength rest depth + 1 := by
  have hquote : c ≠ '"' := by
    rintro rfl
    simp at hc
  have hopen : ¬(c = '\x7b' ∨ c = '[') := by
    rintro (rfl | rfl) <;> simp at hc
  rw [containerLength, if_neg hquote, if_neg hopen, if_pos hc, closedLength]
  by_cases hdepth : depth = 0
  · simp [hdepth]
  · rw [if_neg (by omega), if_neg hdepth, Nat.add_sub_cancel]

/-- The count of brackets passes a value, and a container that nothing else encloses stops it. -/
def CountedValue (s : List Char) (d : Document) : Prop :=
  (∀ depth rest, containerLength (s ++ rest) (depth + 1) 0 =
    s.length + containerLength rest (depth + 1) 0) ∧
  (d.isContainer = true → ∀ rest, containerLength (s ++ rest) 0 0 = s.length)

/-- A closing bracket at the end stops the count, unless another container is open. -/
def Counted (s : List Char) : Part → Prop
  | .value d => CountedValue s d
  | _ => ∀ depth rest, containerLength (s ++ rest) (depth + 1) 0 = s.length + closedLength rest depth

theorem counted_open {c : Char} (hc : c = '\x7b' ∨ c = '[')
    (h : ∀ depth rest, containerLength (s ++ rest) (depth + 1) 0 = s.length + closedLength rest depth)
    (d : Document) : CountedValue (c :: s) d := by
  have hquote : c ≠ '"' := by
    rintro rfl
    simp at hc
  have hcount (depth : Nat) (rest : List Char) :
      containerLength (c :: s ++ rest) depth 0 = (c :: s).length + closedLength rest depth := by
    rw [List.cons_append, containerLength, if_neg hquote, if_pos hc, h, List.length_cons]
    omega
  refine ⟨fun depth rest => ?_, fun _ rest => ?_⟩
  · rw [hcount, closedLength, if_neg (Nat.succ_ne_zero depth)]
  · rw [hcount, closedLength, if_pos rfl, Nat.add_zero]

variable {st : Style}

theorem counted_of_spells {p : Part} (h : Spells st.blank s p) : Counted s p := by
  induction h with
  | word hw =>
    refine ⟨fun depth rest => ?_, fun hcontainer => by contradiction⟩
    exact containerLength_inert (fun c hc => isInert_of_isWordChar (hw.2 c hc)) _ rest
  | text hb =>
    refine ⟨fun depth rest => ?_, fun hcontainer => by contradiction⟩
    rw [List.cons_append, List.append_assoc, List.singleton_append, containerLength_literal hb]
    simp
  | emptyList hg | emptyRecord hg =>
    refine counted_open (by simp) (fun depth rest => ?_) _
    rw [List.append_assoc, List.singleton_append, containerLength_space hg,
      containerLength_close (by simp), List.length_append, List.length_singleton]
    omega
  | list hg _ ih | record hg _ ih =>
    refine counted_open (by simp) (fun depth rest => ?_) _
    rw [List.append_assoc, containerLength_space hg, ih, List.length_append]
    omega
  | item _ hg _ ihs iht =>
    intro depth rest
    rw [List.append_assoc, List.append_assoc, ihs.1, containerLength_space hg, iht, List.length_append,
      List.length_append]
    omega
  | lastItem | lastMember =>
    intro depth rest
    rw [List.singleton_append, containerLength_close (by simp), List.length_singleton]
    omega
  | trailingItem _ hg | trailingMember _ hg =>
    intro depth rest
    rw [List.cons_append, List.append_assoc, List.singleton_append, containerLength_char (by decide),
      containerLength_space hg, containerLength_close (by simp), List.length_cons, List.length_append,
      List.length_singleton]
    omega
  | nextItem hg _ ih | nextMember hg _ ih =>
    intro depth rest
    rw [List.cons_append, List.append_assoc, containerLength_char (by decide), containerLength_space hg, ih,
      List.length_cons, List.length_append]
    omega
  | member hk hg₁ hg₂ _ hg₃ _ ihs iht | extra hk _ hg₁ hg₂ _ hg₃ _ ihs iht =>
    intro depth rest
    simp only [List.cons_append, List.append_assoc]
    rw [containerLength_literal hk, containerLength_space hg₁, containerLength_char (by decide),
      containerLength_space hg₂, ihs.1, containerLength_space hg₃, iht]
    simp only [List.length_cons, List.length_append]
    omega
  | bare hk _ hg₁ hg₂ _ iht =>
    intro depth rest
    simp only [List.cons_append, List.append_assoc]
    rw [containerLength_literal hk, containerLength_space hg₁, containerLength_char (by decide),
      containerLength_space hg₂, iht]
    simp only [List.length_cons, List.length_append]
    omega

/-! ### Fields -/

/-- What may stand behind a value and its blanks. -/
def Stops (c : Char) : Prop := c = ',' ∨ c = '\x7d' ∨ c = ']'

/-- Blanks as the scanners take them. -/
def IsAsciiBlank (g : List Char) : Prop := ∀ c ∈ g, isAsciiBlank c = true

theorem isAsciiBlank_space (hg : IsSpace g) : IsAsciiBlank g :=
  fun c hc => Json.isAsciiBlank_of_isSpace (hg c hc)

/-- Blanks reach up to what does not start with one. -/
theorem span_blank (hg : IsAsciiBlank g) (hs : ∀ c ∈ s.head?, isAsciiBlank c = false) :
    (g ++ s).takeWhile isAsciiBlank = g ∧ (g ++ s).dropWhile isAsciiBlank = s := by
  rw [List.takeWhile_append_of_pos hg, List.dropWhile_append_of_pos hg]
  cases s with
  | nil => simp
  | cons c s => simp [hs c rfl]

theorem blankLength_blank (hg : IsAsciiBlank g) (hs : ∀ c ∈ s.head?, isAsciiBlank c = false) :
    blankLength (g ++ s) = g.length :=
  congrArg List.length (span_blank hg hs).1

theorem drop_blankLength (s : List Char) : s.drop (blankLength s) = s.dropWhile isAsciiBlank := by
  have h := congrArg (List.drop (blankLength s))
    (List.takeWhile_append_dropWhile (p := isAsciiBlank) (l := s))
  rw [blankLength, List.drop_left] at h
  exact h.symm

theorem Stops.not_blank {c : Char} (hc : Stops c) (rest : List Char) :
    ∀ d ∈ (c :: rest).head?, isAsciiBlank d = false := by
  rintro d ⟨⟩
  obtain rfl | rfl | rfl := hc <;> rfl

theorem Stops.blankLength_eq {c : Char} (hc : Stops c) (rest : List Char) : blankLength (c :: rest) = 0 :=
  blankLength_blank (isAsciiBlank_space Json.isSpace_nil) (hc.not_blank rest)

/-- The value and the blanks behind it. -/
def valueSpan (s : List Char) : Nat := valueLength s + blankLength (s.drop (valueLength s))

theorem valueSpan_of_length (hs : valueLength (s ++ (g ++ t)) = s.length) (hg : IsAsciiBlank g)
    (ht : ∀ c ∈ t.head?, isAsciiBlank c = false) : valueSpan (s ++ (g ++ t)) = s.length + g.length := by
  rw [valueSpan, hs, List.drop_left, blankLength_blank hg ht]

theorem valueLength_open {c : Char} (hc : isOpening c = true) (s : List Char) :
    valueLength (c :: s) = containerLength (c :: s) 0 0 := by
  simp only [isOpening, Bool.or_eq_true, beq_iff_eq] at hc
  obtain rfl | rfl := hc <;> rfl

/-- Neither a string nor a container. -/
theorem valueLength_other (h : ∀ c ∈ s.head?, c ≠ '"' ∧ isOpening c = false) : valueLength s =
    (s.takeWhile fun c => c ≠ ',' && c ≠ '\x7d' && c ≠ ']').length := by
  unfold valueLength
  split
  · exact absurd rfl (h _ rfl).1
  · exact absurd (h _ rfl).2 (by decide)
  · exact absurd (h _ rfl).2 (by decide)
  · rfl

theorem valueSpan_word {w : List Char} (hw : IsWord w) (hg : IsSpace g) {c : Char} (hc : Stops c)
    (rest : List Char) : valueSpan (w ++ (g ++ c :: rest)) = w.length + g.length := by
  let plain (d : Char) : Bool := d ≠ ',' && d ≠ '\x7d' && d ≠ ']'
  -- the blanks behind a number or a name count as a part of it
  have hplain : ∀ d ∈ w ++ g, plain d = true := by
    intro d hd
    have hd : isWordChar d = true ∨ Json.isSpace d = true := (List.mem_append.1 hd).imp (hw.2 d) (hg d)
    simp only [plain, Bool.and_eq_true, decide_eq_true_eq]
    refine ⟨⟨?_, ?_⟩, ?_⟩ <;> rintro rfl <;> obtain hd | hd := hd <;> contradiction
  have hstop : plain c = false := by
    obtain rfl | rfl | rfl := hc <;> rfl
  have hlength : valueLength (w ++ (g ++ c :: rest)) = (w ++ g).length := by
    have htake : (w ++ g ++ c :: rest).takeWhile plain = w ++ g := by
      rw [List.takeWhile_append_of_pos hplain, List.takeWhile_cons_of_neg (by simp [hstop]),
        List.append_nil]
    obtain ⟨hne, hword⟩ := hw
    cases w with
    | nil => contradiction
    | cons d w =>
      have hhead : ∀ c ∈ (d :: w ++ (g ++ c :: rest)).head?, c ≠ '"' ∧ isOpening c = false := by
        rintro _ ⟨⟩
        have hd := hword d List.mem_cons_self
        refine ⟨?_, Bool.eq_false_iff.2 fun hopen => ?_⟩
        · rintro rfl
          contradiction
        · simp only [isOpening, Bool.or_eq_true, beq_iff_eq] at hopen
          obtain rfl | rfl := hopen <;> contradiction
      rw [valueLength_other hhead, ← List.append_assoc, htake]
  rw [valueSpan, hlength, ← List.append_assoc, List.drop_left, List.length_append, hc.blankLength_eq]
  rfl

theorem valueSpan_spells {d : Document} (h : Spells st.blank s (.value d)) (hg : IsSpace g) {c : Char}
    (hc : Stops c) (rest : List Char) : valueSpan (s ++ (g ++ c :: rest)) = s.length + g.length := by
  have hcount := counted_of_spells h
  cases h with
  | word hw => exact valueSpan_word hw hg hc rest
  | text hb =>
    refine valueSpan_of_length ?_ (isAsciiBlank_space hg) (hc.not_blank rest)
    rw [List.cons_append, List.append_assoc, valueLength, List.singleton_append, literalLength_body hb]
    simp
  | emptyList | list | emptyRecord | record =>
    exact valueSpan_of_length (hcount.2 rfl _) (isAsciiBlank_space hg) (hc.not_blank rest)

theorem drop_key (b s : List Char) (n : Nat) : (b ++ '"' :: s).drop (b.length + 1 + n) = s.drop n := by
  have hassoc : b ++ '"' :: s = (b ++ ['"']) ++ s := by simp
  have hlength : b.length + 1 = (b ++ ['"']).length := by simp
  rw [← List.drop_drop, hassoc, hlength, List.drop_left]

/-- A string is no key if no colon follows it. -/
theorem field?_none (hb : IsBody b) (hs : (s.dropWhile isAsciiBlank).head? ≠ some ':') :
    field? (b ++ '"' :: s) = none := by
  have hkey : (b ++ '"' :: s).drop (b.length + 1) = s := drop_key b s 0
  unfold field?
  dsimp only
  rw [literalLength_body hb, hkey, drop_key, drop_blankLength]
  split
  · next heq =>
    rw [heq] at hs
    exact absurd rfl hs
  · rfl

/-- A field reaches up to what follows the blanks behind its value. -/
theorem field?_colon {g₁ g₂ v rest : List Char} (hb : IsBody b) (hg₁ : IsAsciiBlank g₁)
    (hg₂ : IsAsciiBlank g₂)
    (hv : ∀ c ∈ (v ++ rest).head?, isAsciiBlank c = false) (hspan : valueSpan (v ++ rest) = v.length) :
    ∃ n, field? (b ++ '"' :: (g₁ ++ ':' :: (g₂ ++ (v ++ rest)))) = some (b, n) ∧
      (b ++ '"' :: (g₁ ++ ':' :: (g₂ ++ (v ++ rest)))).drop n = rest := by
  have hcolon : ∀ c ∈ (':' :: (g₂ ++ (v ++ rest))).head?, isAsciiBlank c = false := by
    rintro c ⟨⟩
    rfl
  have hkey (s : List Char) : (b ++ '"' :: s).drop (b.length + 1) = s := drop_key b s 0
  have htake (s : List Char) : (b ++ '"' :: s).take (b.length + 1 - 1) = b := by simp
  refine ⟨b.length + 1 + g₁.length + 1 + (g₂.length + v.length), ?_, ?_⟩
  · unfold field?
    dsimp only
    rw [literalLength_body hb, hkey, drop_key, blankLength_blank hg₁ hcolon, List.drop_left]
    split
    · next heq =>
      cases heq
      rw [htake, blankLength_blank hg₂ hv, ← hspan, valueSpan, ← List.drop_drop, List.drop_left,
        Nat.add_assoc _ _ (blankLength _), Nat.add_assoc g₂.length]
    · next hcolon => exact (hcolon _ rfl).elim
  · have htext : b ++ '"' :: (g₁ ++ ':' :: (g₂ ++ (v ++ rest))) =
        (b ++ '"' :: (g₁ ++ ':' :: (g₂ ++ v))) ++ rest := by simp
    rw [htext, List.drop_left']
    simp only [List.length_append, List.length_cons]
    omega

theorem field?_member {k g₁ g₂ g₃ : List Char} {d : Document} {c : Char} (hk : IsBody k) (hg₁ : IsSpace g₁)
    (hg₂ : IsSpace g₂) (hs : Spells st.blank s (.value d)) (hg₃ : IsSpace g₃) (hc : Stops c)
    (rest : List Char) : ∃ n,
      field? (k ++ '"' :: (g₁ ++ ':' :: (g₂ ++ (s ++ (g₃ ++ c :: rest))))) = some (k, n) ∧
        (k ++ '"' :: (g₁ ++ ':' :: (g₂ ++ (s ++ (g₃ ++ c :: rest))))).drop n = c :: rest := by
  have hspan := valueSpan_spells hs hg₃ hc rest
  rw [← List.append_assoc s, ← List.length_append] at hspan
  have hhead : ∀ d ∈ (s ++ g₃ ++ c :: rest).head?, isAsciiBlank d = false := by
    rw [List.append_assoc]
    obtain ⟨d, u, htext, hd, -⟩ := hs.starts.append (g₃ ++ c :: rest)
    rw [htext]
    rintro _ ⟨⟩
    exact Json.isAsciiBlank_of_not_isBlank hd
  have h := field?_colon hk (isAsciiBlank_space hg₁) (isAsciiBlank_space hg₂) hhead hspan
  rwa [List.append_assoc] at h

theorem field?_bare {k g₁ g₂ : List Char} {c : Char} (hk : IsBody k) (hg₁ : IsSpace g₁) (hg₂ : IsSpace g₂)
    (hc : Stops c) (rest : List Char) : ∃ n,
      field? (k ++ '"' :: (g₁ ++ ':' :: (g₂ ++ c :: rest))) = some (k, n) ∧
        (k ++ '"' :: (g₁ ++ ':' :: (g₂ ++ c :: rest))).drop n = c :: rest := by
  have hspan : valueSpan ([] ++ c :: rest) = 0 := by
    have hlength : valueLength (c :: rest) = 0 := by
      obtain rfl | rfl | rfl := hc <;> rfl
    rw [List.nil_append, valueSpan, hlength, List.drop_zero, hc.blankLength_eq]
  exact field?_colon hk (isAsciiBlank_space hg₁) (isAsciiBlank_space hg₂) (hc.not_blank rest) hspan

end MockRedirect.Template
