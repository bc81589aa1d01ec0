import MockRedirect.Proofs.Annotated
import MockRedirect.Proofs.Comma
/-! The templates that are parsed. Fields are cut out of the text before anything is read, and where the
value of a field ends is taken from the brackets, quotes and commas alone. So commas that do not belong
there can vanish along with a meta field, and what is parsed need not be a template. -/
namespace MockRedirect.Template
open Document Text

variable {drop : List Char → Bool} {b f g k out r rest s t v : List Char} {c : Char} {n : Nat}

/-! ### Guessed values -/

/-- The inside of a string literal that is never closed. -/
def IsUnclosed (b : List Char) : Prop := IsBody b ∨ ∃ b', IsBody b' ∧ b = b' ++ ['\\']

/-- A text, in front of another one, up to the bracket that closes the outermost of `n` open brackets, or up
to the end. Brackets of both kinds count alike. -/
inductive Nested : Nat → List Char → List Char → Prop
  | opening {n : Nat} {c : Char} {s rest : List Char} (hc : isOpening c = true)
    (h : Nested (n + 1) s rest) : Nested n (c :: s) rest
  | closing {n : Nat} {c : Char} {s rest : List Char} (hc : isClosing c = true)
    (h : Nested (n + 1) s rest) : Nested (n + 2) (c :: s) rest
  | last {n : Nat} {c : Char} {rest : List Char} (hc : isClosing c = true) (hn : n ≤ 1) : Nested n [c] rest
  | literal {n : Nat} {b s rest : List Char} (hb : IsBody b) (h : Nested n s rest) :
    Nested n ('"' :: (b ++ '"' :: s)) rest
  | unclosed {n : Nat} {b : List Char} (hb : IsUnclosed b) : Nested n ('"' :: b) []
  | char {n : Nat} {c : Char} {s rest : List Char} (hc : IsInert c) (h : Nested n s rest) :
    Nested n (c :: s) rest
  | done {n : Nat} : Nested n [] []

/-- What is taken for the value in front of a text. -/
inductive Guessed : List Char → List Char → Prop
  | literal {b rest : List Char} (hb : IsBody b) : Guessed ('"' :: (b ++ ['"'])) rest
  | unclosed {b : List Char} (hb : IsUnclosed b) : Guessed ('"' :: b) []
  | container {c : Char} {s rest : List Char} (hc : isOpening c = true) (h : Nested 0 (c :: s) rest) :
    Guessed (c :: s) rest
  | other {s rest : List Char} (hhead : ∀ c ∈ (s ++ rest).head?, c ≠ '"' ∧ isOpening c = false)
    (hs : ∀ c ∈ s, c ≠ ',' ∧ isClosing c = false) (hrest : ∀ c ∈ rest.head?, c = ',' ∨ isClosing c = true) :
    Guessed s rest

/-- A field in front of a text, with the blanks behind its value. -/
structure IsField (drop : List Char → Bool) (f rest : List Char) : Prop where
  parts : ∃ k g₁ g₂ v g₃, f = '"' :: (k ++ '"' :: (g₁ ++ ':' :: (g₂ ++ (v ++ g₃)))) ∧ IsBody k ∧
    drop k = true ∧ IsAsciiBlank g₁ ∧ IsAsciiBlank g₂ ∧ IsAsciiBlank g₃ ∧ Guessed v (g₃ ++ rest) ∧
    (∀ c ∈ (v ++ (g₃ ++ rest)).head?, isAsciiBlank c = false) ∧ ∀ c ∈ rest.head?, isAsciiBlank c = false

/-- What is left of a text. The first text is the part kept so far, last character first. A field takes
the comma behind it along, or, where none follows, the last comma that was kept, if only blanks came
after it. -/
inductive Cut (drop : List Char → Bool) : List Char → List Char → List Char → Prop
  | done {out : List Char} : Cut drop out [] out.reverse
  | char {out s r : List Char} {c : Char} (hc : c ≠ '"') (h : Cut drop (c :: out) s r) :
    Cut drop out (c :: s) r
  | literal {out b s r : List Char} (hb : IsBody b)
    (hfield : ¬∃ f rest, '"' :: (b ++ '"' :: s) = f ++ rest ∧ IsField drop f rest)
    (h : Cut drop (('"' :: (b ++ ['"'])).reverse ++ out) s r) : Cut drop out ('"' :: (b ++ '"' :: s)) r
  | unclosed {out b : List Char} (hb : IsUnclosed b) : Cut drop out ('"' :: b) (out.reverse ++ '"' :: b)
  | field {out f s r : List Char} (hf : IsField drop f (',' :: s)) (h : Cut drop out s r) :
    Cut drop out (f ++ ',' :: s) r
  | lastField {out f s r : List Char} (hf : IsField drop f s) (hs : s.head? ≠ some ',')
    (h : Cut drop (dropComma out) s r) : Cut drop out (f ++ s) r

/-! ### Literals -/

theorem literalLength_unclosed (hb : IsUnclosed b) : literalLength b = b.length := by
  obtain hb | ⟨b, hb, rfl⟩ := hb
  · induction hb with
    | nil => rfl
    | escape c _ ih => simp [literalLength, ih]
    | char hquote hslash _ ih => simp [literalLength, ih, hquote, hslash]
  · induction hb with
    | nil => rfl
    | escape c _ ih => simp [literalLength, ih]
    | char hquote hslash _ ih => simp [literalLength, ih, hquote, hslash]

/-- A literal is closed or not. -/
theorem literal_cases (s : List Char) : (∃ b r, s = b ++ '"' :: r ∧ IsBody b) ∨ IsUnclosed s := by
  fun_induction literalLength s with
  | case1 => exact .inr (.inl .nil)
  | case2 => exact .inr (.inr ⟨[], .nil, rfl⟩)
  | case3 c s ih =>
    obtain ⟨b, r, rfl, hb⟩ | hs | ⟨b, hb, rfl⟩ := ih
    · exact .inl ⟨'\\' :: c :: b, r, rfl, .escape c hb⟩
    · exact .inr (.inl (.escape c hs))
    · exact .inr (.inr ⟨'\\' :: c :: b, .escape c hb, rfl⟩)
  | case4 s => exact .inl ⟨[], s, rfl, .nil⟩
  | case5 c s hlast hescape hquote ih =>
    have hslash : c ≠ '\\' := by
      rintro rfl
      cases s with
      | nil => exact hlast rfl rfl
      | cons d s => exact hescape d s rfl rfl
    obtain ⟨b, r, rfl, hb⟩ | hs | ⟨b, hb, rfl⟩ := ih
    · exact .inl ⟨c :: b, r, rfl, .char hquote hslash hb⟩
    · exact .inr (.inl (.char hquote hslash hs))
    · exact .inr (.inr ⟨c :: b, .char hquote hslash hb, rfl⟩)

/-! ### Values -/

theorem nested_length (h : Nested n s rest) : containerLength (s ++ rest) n 0 = s.length := by
  induction h with
  | @opening n c s rest hc _ ih =>
    have hquote : c ≠ '"' := by
      rintro rfl
      contradiction
    rw [isOpening, Bool.or_eq_true, beq_iff_eq, beq_iff_eq] at hc
    rw [List.cons_append, containerLength, if_neg hquote, if_pos hc, ih]
    rfl
  | @closing n c s rest hc _ ih =>
    rw [isClosing, Bool.or_eq_true, beq_iff_eq, beq_iff_eq] at hc
    rw [List.cons_append, containerLength_close hc, closedLength, if_neg (Nat.succ_ne_zero n), ih]
    rfl
  | @last n c rest hc hn =>
    have hquote : c ≠ '"' := by
      rintro rfl
      contradiction
    have hopen : ¬(c = '\x7b' ∨ c = '[') := by
      rintro (rfl | rfl) <;> contradiction
    rw [isClosing, Bool.or_eq_true, beq_iff_eq, beq_iff_eq] at hc
    rw [List.singleton_append, containerLength, if_neg hquote, if_neg hopen, if_pos hc, if_pos hn]
    rfl
  | @literal n b s rest hb _ ih =>
    rw [List.cons_append, List.append_assoc, List.cons_append, containerLength_literal hb, ih]
    simp only [List.length_cons, List.length_append]
    omega
  | @unclosed n b hb =>
    have hskip := containerLength_skip b [] n
    rw [List.append_nil] at hskip
    rw [List.append_nil, containerLength, if_pos rfl, literalLength_unclosed hb, hskip]
    rfl
  | char hc _ ih =>
    rw [List.cons_append, containerLength_char hc, ih]
    rfl
  | done => rfl

theorem exists_nested (n : Nat) (s : List Char) : ∃ v rest, s = v ++ rest ∧ Nested n v rest := by
  induction hlength : s.length using Nat.strongRecOn generalizing n s with
  | ind l ih =>
    subst hlength
    cases s with
    | nil => exact ⟨[], [], rfl, .done⟩
    | cons c s =>
      have hs (n : Nat) : ∃ v rest, s = v ++ rest ∧ Nested n v rest :=
        ih s.length (Nat.lt_succ_self _) n s rfl
      by_cases hquote : c = '"'
      · subst hquote
        obtain ⟨b, r, rfl, hb⟩ | hb := literal_cases s
        · have hlt : r.length < ('"' :: (b ++ '"' :: r)).length := by
            simp only [List.length_cons, List.length_append]
            omega
          obtain ⟨v, rest, rfl, hv⟩ := ih r.length hlt n r rfl
          exact ⟨_, rest, by simp, .literal hb hv⟩
        · exact ⟨'"' :: s, [], (List.append_nil _).symm, .unclosed hb⟩
      by_cases hopen : isOpening c = true
      · obtain ⟨v, rest, rfl, hv⟩ := hs (n + 1)
        exact ⟨c :: v, rest, rfl, .opening hopen hv⟩
      by_cases hclose : isClosing c = true
      · obtain hn | ⟨m, rfl⟩ : n ≤ 1 ∨ ∃ m, n = m + 2 := by
          by_cases hn : n ≤ 1
          · exact .inl hn
          · exact .inr ⟨n - 2, by omega⟩
        · exact ⟨[c], s, rfl, .last hclose hn⟩
        · obtain ⟨v, rest, rfl, hv⟩ := hs (m + 1)
          exact ⟨c :: v, rest, rfl, .closing hclose hv⟩
      · obtain ⟨v, rest, rfl, hv⟩ := hs n
        have hinert : IsInert c := by
          simp only [isOpening, isClosing, Bool.or_eq_true, beq_iff_eq, not_or] at hopen hclose
          exact ⟨hquote, hopen.1, hopen.2, hclose.1, hclose.2⟩
        exact ⟨c :: v, rest, rfl, .char hinert hv⟩

theorem guessed_length (h : Guessed v rest) : valueLength (v ++ rest) = v.length := by
  cases h with
  | literal hb =>
    rw [List.cons_append, List.append_assoc, List.singleton_append, valueLength, literalLength_body hb]
    simp
  | unclosed hb =>
    rw [List.append_nil, valueLength, literalLength_unclosed hb]
    rfl
  | container hc h =>
    rw [List.cons_append, valueLength_open hc, ← List.cons_append]
    exact nested_length h
  | other hhead hs hrest =>
    have hplain : ∀ c ∈ v, (c ≠ ',' && c ≠ '\x7d' && c ≠ ']') = true := by
      intro c hc
      obtain ⟨hcomma, hclose⟩ := hs c hc
      simp only [isClosing, Bool.or_eq_false_iff, beq_eq_false_iff_ne] at hclose
      simp [hcomma, hclose]
    have hstop : (rest.takeWhile fun c => c ≠ ',' && c ≠ '\x7d' && c ≠ ']') = [] := by
      cases rest with
      | nil => rfl
      | cons c rest =>
        refine List.takeWhile_cons_of_neg ?_
        have hc := hrest c rfl
        simp only [isClosing, Bool.or_eq_true, beq_iff_eq] at hc
        obtain rfl | rfl | rfl := hc <;> decide
    rw [valueLength_other hhead, List.takeWhile_append_of_pos hplain, hstop, List.append_nil]

theorem exists_guessed (s : List Char) : ∃ v rest, s = v ++ rest ∧ Guessed v rest := by
  by_cases hhead : ∀ c ∈ s.head?, c ≠ '"' ∧ isOpening c = false
  · refine ⟨s.takeWhile fun c => c ≠ ',' && !isClosing c, s.dropWhile fun c => c ≠ ',' && !isClosing c,
      List.takeWhile_append_dropWhile.symm, .other ?_ ?_ ?_⟩
    · rwa [List.takeWhile_append_dropWhile]
    · intro c hc
      have h := List.mem_takeWhile_imp hc
      simpa using h
    · intro c hc
      have h := List.head?_dropWhile_not (fun c => c ≠ ',' && !isClosing c) s
      rw [Option.mem_def] at hc
      rw [hc] at h
      by_cases hcomma : c = ','
      · exact .inl hcomma
      · exact .inr (by simpa [hcomma] using h)
  · cases s with
    | nil => simp at hhead
    | cons c s =>
      by_cases hquote : c = '"'
      · subst hquote
        obtain ⟨b, r, rfl, hb⟩ | hb := literal_cases s
        · exact ⟨'"' :: (b ++ ['"']), r, by simp, .literal hb⟩
        · exact ⟨'"' :: s, [], (List.append_nil _).symm, .unclosed hb⟩
      · have hopen : isOpening c = true := by
          simpa [hquote] using hhead
        obtain ⟨v, rest, hs, hv⟩ := exists_nested 0 (c :: s)
        cases v with
        | nil =>
          cases hv
          contradiction
        | cons d v =>
          obtain ⟨rfl, rfl⟩ := List.cons.inj hs
          exact ⟨c :: v, rest, rfl, .container hopen hv⟩

/-! ### Fields -/

theorem exists_blank (s : List Char) : ∃ g r, s = g ++ r ∧ IsAsciiBlank g ∧
    ∀ c ∈ r.head?, isAsciiBlank c = false := by
  refine ⟨s.takeWhile isAsciiBlank, s.dropWhile isAsciiBlank, List.takeWhile_append_dropWhile.symm,
    fun _ => List.mem_takeWhile_imp, fun c hc => ?_⟩
  have h := List.head?_dropWhile_not isAsciiBlank s
  rw [Option.mem_def] at hc
  simpa [hc] using h

theorem field?_of_isField (h : IsField drop f rest) : ∃ s k n, f ++ rest = '"' :: s ∧
    field? s = some (k, n) ∧ drop k = true ∧ s.drop n = rest := by
  obtain ⟨k, g₁, g₂, v, g₃, rfl, hk, hdrop, hg₁, hg₂, hg₃, hv, hhead, hrest⟩ := h.parts
  have hspan : valueSpan (v ++ g₃ ++ rest) = (v ++ g₃).length := by
    rw [List.append_assoc, valueSpan_of_length (guessed_length hv) hg₃ hrest, List.length_append]
  rw [← List.append_assoc] at hhead
  obtain ⟨n, hfield, hdropped⟩ := field?_colon hk hg₁ hg₂ hhead hspan
  exact ⟨_, k, n, by simp, hfield, hdrop, hdropped⟩

/-- A value with its blanks is guessed behind every colon. -/
theorem exists_value (hcolon : (s.dropWhile isAsciiBlank).head? = some ':') : ∃ g₁ g₂ v g₃ rest,
    s = g₁ ++ ':' :: (g₂ ++ (v ++ (g₃ ++ rest))) ∧ IsAsciiBlank g₁ ∧ IsAsciiBlank g₂ ∧ IsAsciiBlank g₃ ∧
      Guessed v (g₃ ++ rest) ∧ (∀ c ∈ (v ++ (g₃ ++ rest)).head?, isAsciiBlank c = false) ∧
      ∀ c ∈ rest.head?, isAsciiBlank c = false := by
  obtain ⟨g₁, u, rfl, hg₁, hu⟩ := exists_blank s
  rw [(span_blank hg₁ hu).2] at hcolon
  obtain ⟨t, rfl⟩ := List.head?_eq_some_iff.1 hcolon
  obtain ⟨g₂, w, rfl, hg₂, hw⟩ := exists_blank t
  obtain ⟨v, x, rfl, hv⟩ := exists_guessed w
  obtain ⟨g₃, rest, rfl, hg₃, hrest⟩ := exists_blank x
  exact ⟨g₁, g₂, v, g₃, rest, rfl, hg₁, hg₂, hg₃, hv, hw, hrest⟩

/-- A field that is found is one. -/
theorem isField_of_field? (hb : IsBody b) (h : field? (b ++ '"' :: s) = some (k, n))
    (hdrop : drop k = true) : ∃ f rest, '"' :: (b ++ '"' :: s) = f ++ rest ∧ IsField drop f rest := by
  by_cases hcolon : (s.dropWhile isAsciiBlank).head? = some ':'
  · obtain ⟨g₁, g₂, v, g₃, rest, rfl, hg₁, hg₂, hg₃, hv, hhead, hrest⟩ := exists_value hcolon
    have hspan : valueSpan (v ++ g₃ ++ rest) = (v ++ g₃).length := by
      rw [List.append_assoc, valueSpan_of_length (guessed_length hv) hg₃ hrest, List.length_append]
    have hw := hhead
    rw [← List.append_assoc] at hw
    obtain ⟨m, hfield, -⟩ := field?_colon hb hg₁ hg₂ hw hspan
    rw [List.append_assoc] at hfield
    rw [hfield] at h
    cases h
    exact ⟨_, rest, by simp, ⟨b, g₁, g₂, v, g₃, rfl, hb, hdrop, hg₁, hg₂, hg₃, hv, hhead, hrest⟩⟩
  · rw [field?_none hb hcolon] at h
    contradiction

theorem kept_of_no_field (hb : IsBody b)
    (h : ¬∃ f rest, '"' :: (b ++ '"' :: s) = f ++ rest ∧ IsField drop f rest) (k : List Char) (n : Nat)
    (hfield : field? (b ++ '"' :: s) = some (k, n)) : ¬drop k = true := by
  intro hdrop
  obtain ⟨f, rest, htext, hf⟩ := isField_of_field? hb hfield hdrop
  exact h ⟨f, rest, htext, hf⟩

theorem field?_unclosed (hb : IsUnclosed b) : field? b = none := by
  have hend (n : Nat) : b.drop (b.length + n) = [] := List.drop_eq_nil_of_le (Nat.le_add_right _ n)
  unfold field?
  dsimp only
  rw [literalLength_unclosed hb, hend]

/-! ### Cutting -/

theorem stripFrom_unclosed (hb : IsUnclosed b) (out : List Char) :
    stripFrom drop out ('"' :: b) = out.reverse ++ '"' :: b := by
  have hcopy : stripFields.go drop (b ++ []) (.copy b.length) ('"' :: out) =
      (b.reverse ++ '"' :: out).reverse := stripFrom_copy b [] ('"' :: out)
  rw [List.append_nil] at hcopy
  rw [stripFrom_quote, field?_unclosed hb, literalLength_unclosed hb]
  simpa using hcopy

/-- What is left behind a field. -/
theorem stripFrom_isField (hf : IsField drop f s) (out : List Char) :
    stripFrom drop out (f ++ s) = stripBehind drop out s := by
  obtain ⟨u, k, n, htext, hfield, hdrop, hrest⟩ := field?_of_isField hf
  rw [htext, stripFrom_field hfield hdrop, hrest]

/-- Whatever is cut is what the scan takes out. -/
theorem stripFrom_of_cut (h : Cut drop out s r) : stripFrom drop out s = r := by
  induction h with
  | done => rfl
  | char hc _ ih => rw [stripFrom_char hc, ih]
  | literal hb hfield _ ih => rw [stripFrom_literal hb (kept_of_no_field hb hfield), ih]
  | unclosed hb => exact stripFrom_unclosed hb _
  | field hf _ ih =>
    rw [stripFrom_isField hf]
    exact (if_pos rfl).trans ih
  | lastField hf hs _ ih =>
    rw [stripFrom_isField hf]
    exact (if_neg hs).trans ih

theorem IsField.pos (h : IsField drop f rest) : 0 < f.length := by
  obtain ⟨k, g₁, g₂, v, g₃, rfl, -⟩ := h.parts
  exact Nat.succ_pos _

theorem cut_stripFrom (drop : List Char → Bool) (out s : List Char) :
    Cut drop out s (stripFrom drop out s) := by
  induction hlength : s.length using Nat.strongRecOn generalizing out s with
  | ind l ih =>
    subst hlength
    cases s with
    | nil => exact .done
    | cons c s =>
      by_cases hquote : c = '"'
      · subst hquote
        obtain ⟨b, t, rfl, hb⟩ | hb := literal_cases s
        · by_cases hfield : ∃ f rest, '"' :: (b ++ '"' :: t) = f ++ rest ∧ IsField drop f rest
          · obtain ⟨f, rest, htext, hf⟩ := hfield
            have hpos := hf.pos
            rw [htext] at ih ⊢
            rw [stripFrom_isField hf, stripBehind]
            split
            · next hcomma =>
              obtain ⟨u, rfl⟩ := List.head?_eq_some_iff.1 hcomma
              exact .field hf (ih u.length (by grind) out u rfl)
            · next hcomma => exact .lastField hf hcomma (ih rest.length (by grind) _ rest rfl)
          · rw [stripFrom_literal hb (kept_of_no_field hb hfield)]
            exact .literal hb hfield (ih t.length (by grind) _ t rfl)
        · rw [stripFrom_unclosed hb]
          exact .unclosed hb
      · rw [stripFrom_char hquote]
        exact .char hquote (ih s.length (Nat.lt_succ_self _) _ s rfl)

theorem cut_iff : Cut drop [] s r ↔ stripFields drop s = r :=
  ⟨stripFrom_of_cut, fun h => h ▸ cut_stripFrom drop [] s⟩

/-! ### Templates -/

variable {w : Json}

theorem sampleText_eq_iff {s t : List Char} :
    sampleText t = s ↔ ∃ kept, Cut isMetaKey [] (stripComments t) kept ∧ trim kept = s := by
  simp only [cut_iff, exists_eq_left', sampleText]

theorem parse_eq_ok_iff {t : List Char} : parse t = .ok w ↔ ¬t.all isBlank = true ∧
    ∃ v, Json.parse (sampleText t) = .ok v ∧ v.prune (fun k => isMetaKey k.toList) = w := by
  rw [parse]
  split
  · simp_all
  · cases Json.parse (sampleText t) <;> simp_all

/-- The templates that are parsed are those of which plain JSON is left when the comments are taken out and
then the fields, and their trees are those of what is left. -/
theorem parse_eq_ok_iff_cut {t : List Char} : parse t = .ok w ↔ ¬t.all isBlank = true ∧
    ∃ kept d u, Cut isMetaKey [] (stripComments t) kept ∧ Style.strict.Whole (trim kept) d ∧
      d.value? = some u ∧ u.depth ≤ Json.depthLimit ∧ u.merged.prune (fun k => isMetaKey k.toList) = w := by
  rw [parse_eq_ok_iff, and_congr_right_iff]
  intro _
  constructor
  · rintro ⟨v, hv, rfl⟩
    obtain ⟨kept, hcut, htext⟩ := sampleText_eq_iff.1 rfl
    obtain ⟨d, u, hs, hu, hdepth, rfl⟩ := Json.parse_eq_ok.1 hv
    exact ⟨kept, d, u, hcut, htext ▸ hs, hu, hdepth, rfl⟩
  · rintro ⟨kept, d, u, hcut, hs, hu, hdepth, rfl⟩
    have htext : sampleText t = trim kept := sampleText_eq_iff.2 ⟨kept, hcut, rfl⟩
    exact ⟨u.merged, Json.parse_eq_ok.2 ⟨d, u, htext ▸ hs, hu, hdepth, rfl⟩, rfl⟩

/-- A member behind a meta field is taken for a part of its value where the comma between them is missing,
and the comma behind it goes along, even where it trails. -/
theorem parse_swallows : parse "\x7b\"@a\":1 \"b\":2,\x7d".toList = .ok (.obj []) ∧
    ¬∃ d, annotated.blank.Whole (stripComments "\x7b\"@a\":1 \"b\":2,\x7d".toList) d := by
  have hspace := Json.isSpace_nil
  have hwhole : Style.strict.Whole "\x7b\x7d".toList (.record []) :=
    ⟨[], _, [], rfl, hspace, hspace, .emptyRecord hspace⟩
  have htext : sampleText "\x7b\"@a\":1 \"b\":2,\x7d".toList = "\x7b\x7d".toList := by decide
  have hread : Json.parse "\x7b\x7d".toList = .ok (.obj []) :=
    (Json.parse_of_whole hwhole rfl).2 ⟨by decide, rfl⟩
  constructor
  · exact parse_eq_ok_iff.2 ⟨by decide, .obj [], htext ▸ hread, rfl⟩
  · rintro ⟨d, hd⟩
    -- a text in this style has no comma that trails
    have hcommas : _ ∧ (annotated.trailing ∨ _) := dropTrailingCommas_whole hd
    obtain ⟨-, htrail | heq⟩ := hcommas
    · exact htrail
    · exact absurd heq (by decide)

/-- Without a literal that starts with the mark nothing is cut. -/
theorem eq_of_cut (h : Cut isMetaKey out s r) (hmark : ¬['"', metaMark] <:+: s) : r = out.reverse ++ s := by
  have hfield {f rest : List Char} (hf : IsField isMetaKey f rest) : ['"', metaMark] <+: f := by
    obtain ⟨k, g₁, g₂, v, g₃, rfl, -, hk, -⟩ := hf.parts
    obtain ⟨k', rfl⟩ := List.head?_eq_some_iff.1 (eq_of_beq hk)
    exact ⟨_, rfl⟩
  induction h with
  | done => simp
  | char _ _ ih =>
    rw [ih fun h => hmark (h.trans (List.suffix_cons _ _).isInfix)]
    simp
  | @literal out b s r _ _ _ ih =>
    have hs : s <:+ '"' :: (b ++ '"' :: s) := ⟨'"' :: (b ++ ['"']), by simp⟩
    rw [ih fun h => hmark (h.trans hs.isInfix)]
    simp
  | unclosed => rfl
  | field hf _ _ | lastField hf _ _ _ =>
    exact absurd ((hfield hf).trans (List.prefix_append _ _)).isInfix hmark

/-- A template without such a literal is parsed exactly if it is JSON with comments in it. -/
theorem parse_eq_ok_iff_of_no_mark {t : List Char} (h : ¬['"', metaMark] <:+: stripComments t) :
    parse t = .ok w ↔ ¬t.all isBlank = true ∧ ∃ v, Json.parse (trim (stripComments t)) = .ok v ∧
      v.prune (fun k => isMetaKey k.toList) = w := by
  have htext : sampleText t = trim (stripComments t) :=
    congrArg trim (eq_of_cut (cut_stripFrom isMetaKey [] (stripComments t)) h)
  rw [parse_eq_ok_iff, htext]

end MockRedirect.Template
