import MockRedirect.Proofs.Field
/-! Dropping the commas in front of closing brackets leaves a text that spells the same without them. -/
namespace MockRedirect.Template
open Document Text

variable {s t rest : List Char} {st : Style}

theorem dropTrailingCommas_copy (s t : List Char) :
    dropTrailingCommas.go (s ++ t) s.length = s ++ dropTrailingCommas t := by
  induction s with
  | nil => rfl
  | cons c s ih => exact congrArg (c :: ·) ih

theorem dropTrailingCommas_char {c : Char} (hquote : c ≠ '"') (hcomma : c ≠ ',') :
    Passes dropTrailingCommas [c] [c] := by
  intro rest
  have hgo : dropTrailingCommas (c :: rest) =
      if c = '"' then c :: dropTrailingCommas.go rest (literalLength rest)
      else
        if c = ',' ∧ ((rest.dropWhile isAsciiBlank).head? = some '\x7d' ∨
          (rest.dropWhile isAsciiBlank).head? = some ']') then dropTrailingCommas rest
        else c :: dropTrailingCommas rest := rfl
  rw [if_neg hquote, if_neg fun h => hcomma h.1] at hgo
  exact hgo

theorem dropTrailingCommas_plain (h : ∀ c ∈ s, c ≠ '"' ∧ c ≠ ',') :
    Passes dropTrailingCommas s s := by
  induction s with
  | nil => exact .nil
  | cons c s ih =>
    rw [List.forall_mem_cons] at h
    exact .cons (dropTrailingCommas_char h.1.1 h.1.2) (ih h.2)

theorem dropTrailingCommas_space {g : List Char} (hg : IsSpace g) : Passes dropTrailingCommas g g := by
  refine dropTrailingCommas_plain fun c hc => ?_
  have hc := hg c hc
  constructor <;> rintro rfl <;> contradiction

/-- A literal stays as it is, also one that is never closed. -/
theorem dropTrailingCommas_quote {b : List Char} (hb : literalLength (b ++ s) = b.length) :
    dropTrailingCommas ('"' :: (b ++ s)) = '"' :: (b ++ dropTrailingCommas s) := by
  have hgo (cs : List Char) : dropTrailingCommas ('"' :: cs) =
      '"' :: dropTrailingCommas.go cs (literalLength cs) := rfl
  rw [hgo, hb, dropTrailingCommas_copy]

theorem dropTrailingCommas_literal {b : List Char} (hb : IsBody b) :
    Passes dropTrailingCommas ('"' :: (b ++ ['"'])) ('"' :: (b ++ ['"'])) := by
  intro rest
  have hlength : literalLength (b ++ ['"'] ++ rest) = (b ++ ['"']).length := by
    rw [List.append_assoc, List.singleton_append, literalLength_body hb]
    simp
  exact dropTrailingCommas_quote hlength

/-- A comma goes if a closing bracket is next, and stays otherwise. -/
theorem dropTrailingCommas_comma (rest : List Char) : dropTrailingCommas (',' :: rest) =
    if (rest.dropWhile isAsciiBlank).head? = some '\x7d' ∨ (rest.dropWhile isAsciiBlank).head? = some ']'
    then dropTrailingCommas rest else ',' :: dropTrailingCommas rest := by
  have hgo : dropTrailingCommas (',' :: rest) =
      if ',' = ',' ∧ ((rest.dropWhile isAsciiBlank).head? = some '\x7d' ∨
        (rest.dropWhile isAsciiBlank).head? = some ']') then dropTrailingCommas rest
      else ',' :: dropTrailingCommas rest := rfl
  simpa using hgo

/-- A comma with another element or member behind it stays. -/
theorem dropTrailingCommas_next {g s' : List Char} (hg : IsSpace g) (hs : Json.Starts s)
    (h : Passes dropTrailingCommas s s') :
    Passes dropTrailingCommas (',' :: (g ++ s)) (',' :: (g ++ s')) := by
  intro rest
  obtain ⟨c, u, rfl, hc, hbracket, hbrace⟩ := hs
  have hhead : ∀ d ∈ (c :: u ++ rest).head?, isAsciiBlank d = false := by
    rintro _ ⟨⟩
    exact Json.isAsciiBlank_of_not_isBlank hc
  have hnext : ¬((c :: u ++ rest).head? = some '\x7d' ∨ (c :: u ++ rest).head? = some ']') := by
    rintro (h | h) <;> cases h <;> contradiction
  rw [List.cons_append, List.append_assoc, dropTrailingCommas_comma,
    (span_blank (isAsciiBlank_space hg) hhead).2, if_neg hnext,
    dropTrailingCommas_space hg, h]
  simp

/-- A comma with nothing but blanks before a closing bracket goes. -/
theorem dropTrailingCommas_last {g : List Char} {c : Char} (hg : IsSpace g) (hc : c = '\x7d' ∨ c = ']') :
    Passes dropTrailingCommas (',' :: (g ++ [c])) (g ++ [c]) := by
  intro rest
  have hstops : Stops c := .inr hc
  have hplain : Passes dropTrailingCommas (g ++ [c]) (g ++ [c]) := by
    refine dropTrailingCommas_plain fun d hd => ?_
    obtain hd | hd := List.mem_append.1 hd
    · have hd := hg d hd
      constructor <;> rintro rfl <;> contradiction
    · rw [List.mem_singleton.1 hd]
      obtain rfl | rfl := hc <;> decide
  have hnext : (c :: rest).head? = some '\x7d' ∨ (c :: rest).head? = some ']' := by
    simpa using hc
  rw [List.cons_append, dropTrailingCommas_comma, List.append_assoc, List.singleton_append,
    (span_blank (isAsciiBlank_space hg) (hstops.not_blank rest)).2, if_pos hnext,
    ← List.singleton_append, ← List.append_assoc,
    hplain]

/-- A text without trailing commas that spells the same. It is the text itself if the style has none. -/
def Closes (st : Style) (s : List Char) : Part → Prop
  | .moreItems ds => ∃ g s', Passes dropTrailingCommas s (g ++ s') ∧ IsSpace g ∧
    Spells st.closed s' (.moreItems ds) ∧ (st.trailing ∨ g ++ s' = s)
  | .moreMembers es => ∃ g s', Passes dropTrailingCommas s (g ++ s') ∧ IsSpace g ∧
    Spells st.closed s' (.moreMembers es) ∧ (st.trailing ∨ g ++ s' = s)
  | p => ∃ s', Passes dropTrailingCommas s s' ∧ Spells st.closed s' p ∧ (st.trailing ∨ s' = s)

theorem closes_of_spells {p : Part} (h : Spells st.blank s p) : Closes st s p := by
  have hspace {g : List Char} (hg : IsSpace g) : Passes dropTrailingCommas g g :=
    dropTrailingCommas_space hg
  have hcolon : Passes dropTrailingCommas [':'] [':'] := dropTrailingCommas_char (by decide) (by decide)
  have hmark {c : Char} (hc : c ∈ ['[', ']', '\x7b', '\x7d']) : Passes dropTrailingCommas [c] [c] := by
    refine dropTrailingCommas_char ?_ ?_ <;> rintro rfl <;> contradiction
  induction h with
  | @word w hw =>
    have hplain : Passes dropTrailingCommas w w := by
      refine dropTrailingCommas_plain fun c hc => ?_
      have hc := hw.2 c hc
      constructor <;> rintro rfl <;> contradiction
    exact ⟨w, hplain, .word hw, .inr rfl⟩
  | text hb => exact ⟨_, dropTrailingCommas_literal hb, .text hb, .inr rfl⟩
  | emptyList hg =>
    exact ⟨_, .cons (hmark (by simp)) ((hspace hg).append (hmark (by simp))), .emptyList hg, .inr rfl⟩
  | list hg _ ih =>
    obtain ⟨s', hpass, hs', heq⟩ := ih
    exact ⟨_, .cons (hmark (by simp)) ((hspace hg).append hpass), .list hg hs', heq.imp_right (by rw [·])⟩
  | emptyRecord hg =>
    exact ⟨_, .cons (hmark (by simp)) ((hspace hg).append (hmark (by simp))), .emptyRecord hg, .inr rfl⟩
  | record hg _ ih =>
    obtain ⟨s', hpass, hs', heq⟩ := ih
    exact ⟨_, .cons (hmark (by simp)) ((hspace hg).append hpass), .record hg hs', heq.imp_right (by rw [·])⟩
  | @item s g t d ds _ hg ht ihs iht =>
    obtain ⟨s', hpass, hs', heq⟩ := ihs
    obtain ⟨g', t', hpass', hg', ht', heq'⟩ := iht
    refine ⟨s' ++ ((g ++ g') ++ t'), ?_, .item hs' (Json.isSpace_append hg hg') ht', ?_⟩
    · rw [List.append_assoc]
      exact hpass.append ((hspace hg).append hpass')
    · rw [List.append_assoc]
      grind
  | lastItem => exact ⟨[], _, hmark (by simp), Json.isSpace_nil, .lastItem, .inr rfl⟩
  | @trailingItem g htrail hg =>
    exact ⟨g, _, dropTrailingCommas_last hg (.inr rfl), hg, .lastItem, .inl htrail⟩
  | nextItem hg hs ih =>
    obtain ⟨s', hpass, hs', heq⟩ := ih
    exact ⟨[], _, dropTrailingCommas_next hg hs.starts_items hpass, Json.isSpace_nil, .nextItem hg hs',
      heq.imp_right (by rintro rfl; rfl)⟩
  | member hk hg₁ hg₂ _ hg₃ _ ihs iht =>
    obtain ⟨s', hpass, hs', heq⟩ := ihs
    obtain ⟨g', t', hpass', hg', ht', heq'⟩ := iht
    have hmember := (dropTrailingCommas_literal hk).member hcolon (hspace hg₁) (hspace hg₂) hpass
      (hspace hg₃) hpass'
    rw [← List.append_assoc _ g'] at hmember
    exact ⟨_, hmember, .member hk hg₁ hg₂ hs' (Json.isSpace_append hg₃ hg') ht', by grind⟩
  | extra hk hx hg₁ hg₂ _ hg₃ _ ihs iht =>
    obtain ⟨s', hpass, hs', heq⟩ := ihs
    obtain ⟨g', t', hpass', hg', ht', heq'⟩ := iht
    have hmember := (dropTrailingCommas_literal hk).member hcolon (hspace hg₁) (hspace hg₂) hpass
      (hspace hg₃) hpass'
    rw [← List.append_assoc _ g'] at hmember
    exact ⟨_, hmember, .extra hk hx hg₁ hg₂ hs' (Json.isSpace_append hg₃ hg') ht', by grind⟩
  | bare hk hx hg₁ hg₂ _ iht =>
    obtain ⟨g', t', hpass', hg', ht', heq'⟩ := iht
    have hrest := (hspace hg₂).append hpass'
    have hkey := (dropTrailingCommas_literal hk).key ((hspace hg₁).append (hcolon.cons hrest))
    rw [← List.append_assoc _ g'] at hkey
    exact ⟨_, hkey, .bare hk hx hg₁ (Json.isSpace_append hg₂ hg') ht', by grind⟩
  | lastMember => exact ⟨[], _, hmark (by simp), Json.isSpace_nil, .lastMember, .inr rfl⟩
  | @trailingMember g htrail hg =>
    exact ⟨g, _, dropTrailingCommas_last hg (.inl rfl), hg, .lastMember, .inl htrail⟩
  | nextMember hg hs ih =>
    obtain ⟨s', hpass, hs', heq⟩ := ih
    exact ⟨[], _, dropTrailingCommas_next hg hs.starts_members hpass, Json.isSpace_nil, .nextMember hg hs',
      heq.imp_right (by rintro rfl; rfl)⟩

theorem dropTrailingCommas_whole {d : Document} (h : st.blank.Whole s d) :
    st.closed.Whole (dropTrailingCommas s) d ∧ (st.trailing ∨ dropTrailingCommas s = s) := by
  obtain ⟨g, t, g', rfl, hg, hg', ht⟩ := h
  obtain ⟨t', hpass, ht', heq⟩ := closes_of_spells ht
  have htext : dropTrailingCommas (g ++ (t ++ g')) = g ++ (t' ++ g') := by
    have h := (dropTrailingCommas_space hg).append (hpass.append (dropTrailingCommas_space hg')) []
    simpa [dropTrailingCommas, dropTrailingCommas.go] using h
  rw [htext]
  refine ⟨⟨g, t', g', rfl, hg, hg', ht'⟩, heq.imp_right ?_⟩
  rintro rfl
  rfl

end MockRedirect.Template
