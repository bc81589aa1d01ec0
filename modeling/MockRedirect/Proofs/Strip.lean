import MockRedirect.Proofs.Field
/-! Taking fields out of a text takes members out of the document that it spells. -/
namespace MockRedirect.Template
open Document Text

variable {drop : List Char → Bool} {out s t u rest : List Char} {st : Style}

/-! ### Steps -/

/-- What remains of a text behind the part of it that is kept so far, last character first. -/
def stripFrom (drop : List Char → Bool) (out s : List Char) : List Char :=
  stripFields.go drop s (.copy 0) out

/-- What remains of a text behind a field that is taken out. -/
def stripBehind (drop : List Char → Bool) (out s : List Char) : List Char :=
  if s.head? = some ',' then stripFrom drop out s.tail else stripFrom drop (dropComma out) s

theorem stripFrom_copy (s t out : List Char) :
    stripFields.go drop (s ++ t) (.copy s.length) out = stripFrom drop (s.reverse ++ out) t := by
  induction s generalizing out with
  | nil => rfl
  | cons c s ih =>
    rw [List.reverse_cons, List.append_assoc]
    exact ih (c :: out)

theorem stripFrom_skip (s : List Char) (n : Nat) (out : List Char) :
    stripFields.go drop s (.skip n) out = stripFrom drop out (s.drop n) := by
  induction s generalizing n with
  | nil =>
    rw [List.drop_nil]
    rfl
  | cons c s ih =>
    cases n with
    | zero => rfl
    | succ n => exact ih n

theorem stripFrom_char {c : Char} (hc : c ≠ '"') (out s : List Char) :
    stripFrom drop out (c :: s) = stripFrom drop (c :: out) s :=
  if_neg hc

theorem stripFrom_quote (out s : List Char) : stripFrom drop out ('"' :: s) =
    match field? s with
    | some (key, n) =>
      if drop key then stripBehind drop out (s.drop n)
      else stripFields.go drop s (.copy (literalLength s)) ('"' :: out)
    | none => stripFields.go drop s (.copy (literalLength s)) ('"' :: out) := by
  have hgo : stripFrom drop out ('"' :: s) =
      match field? s with
      | some (key, n) =>
        if drop key then
          if (s.drop n).head? = some ',' then stripFields.go drop s (.skip (n + 1)) out
          else stripFields.go drop s (.skip n) (dropComma out)
        else stripFields.go drop s (.copy (literalLength s)) ('"' :: out)
      | none => stripFields.go drop s (.copy (literalLength s)) ('"' :: out) := rfl
  rw [hgo]
  split
  · next key n _ =>
    rw [stripFrom_skip, stripFrom_skip, ← List.tail_drop]
    rfl
  · rfl

theorem stripFrom_field {k : List Char} {n : Nat} (hfield : field? s = some (k, n)) (hk : drop k = true)
    (out : List Char) : stripFrom drop out ('"' :: s) = stripBehind drop out (s.drop n) := by
  rw [stripFrom_quote, hfield]
  exact if_pos hk

theorem stripFrom_literal {b : List Char} (hb : IsBody b)
    (h : ∀ k n, field? (b ++ '"' :: s) = some (k, n) → ¬drop k = true) (out : List Char) :
    stripFrom drop out ('"' :: (b ++ '"' :: s)) =
      stripFrom drop (('"' :: (b ++ ['"'])).reverse ++ out) s := by
  have hcopy : stripFields.go drop (b ++ '"' :: s) (.copy (literalLength (b ++ '"' :: s))) ('"' :: out) =
      stripFrom drop (('"' :: (b ++ ['"'])).reverse ++ out) s := by
    have hgo : stripFields.go drop (b ++ ['"'] ++ s) (.copy (b ++ ['"']).length) ('"' :: out) =
        stripFrom drop ((b ++ ['"']).reverse ++ '"' :: out) s := stripFrom_copy (b ++ ['"']) s ('"' :: out)
    rw [literalLength_body hb]
    simpa using hgo
  rw [stripFrom_quote]
  split
  · next k n hfield => rw [if_neg (h k n hfield), hcopy]
  · exact hcopy

theorem dropComma_space {g : List Char} (hg : IsSpace g) (out : List Char) :
    dropComma (g.reverse ++ out) = dropComma out := by
  have hblank : ∀ c ∈ g.reverse, isBlank c = true := fun c hc =>
    isBlank_of_isAsciiBlank (Json.isAsciiBlank_of_isSpace (hg c (List.mem_reverse.1 hc)))
  rw [dropComma, List.dropWhile_append_of_pos hblank, ← dropComma]

/-! ### Texts without quotes -/

def Unquoted (s : List Char) : Prop := ∀ c ∈ s, c ≠ '"'

theorem Unquoted.cons {c : Char} (hc : c ≠ '"') (h : Unquoted s) : Unquoted (c :: s) :=
  List.forall_mem_cons.2 ⟨hc, h⟩

theorem Unquoted.append (h : Unquoted s) (h' : Unquoted t) : Unquoted (s ++ t) :=
  List.forall_mem_append.2 ⟨h, h'⟩

theorem unquoted_mark {c : Char} (hc : c ≠ '"') : Unquoted [c] := by simpa [Unquoted] using hc

theorem unquoted_space {g : List Char} (hg : IsSpace g) : Unquoted g := by
  rintro c hc rfl
  have h := hg _ hc
  contradiction

/-- Blanks between two marks. -/
theorem unquoted_marks {g : List Char} {c d : Char} (hc : c ≠ '"') (hg : IsSpace g) (hd : d ≠ '"') :
    Unquoted (c :: (g ++ [d])) :=
  .cons hc ((unquoted_space hg).append (unquoted_mark hd))

theorem unquoted_word {w : List Char} (hw : IsWord w) : Unquoted w := by
  rintro c hc rfl
  have h := hw.2 _ hc
  contradiction

theorem stripFrom_unquoted (h : Unquoted s) (out t : List Char) :
    stripFrom drop out (s ++ t) = stripFrom drop (s.reverse ++ out) t := by
  induction s generalizing out with
  | nil => rfl
  | cons c s ih =>
    obtain ⟨hc, hs⟩ := List.forall_mem_cons.1 h
    rw [List.cons_append, stripFrom_char hc, ih hs, List.reverse_cons, List.append_assoc]
    rfl

/-! ### What is left -/

/-- What remains of a text keeps a part with this property, and then goes on with the rest. -/
def Leaves (drop : List Char → Bool) (x out rest : List Char) (P : List Char → Prop) : Prop :=
  ∃ s, x = stripFrom drop (s.reverse ++ out) rest ∧ P s

section
variable {x p : List Char} {P Q : List Char → Prop}

/-- More of the text is kept in front. -/
theorem Leaves.behind (h : Leaves drop x (p.reverse ++ out) rest P) (hPQ : ∀ s, P s → Q (p ++ s)) :
    Leaves drop x out rest Q := by
  obtain ⟨s, rfl, hs⟩ := h
  refine ⟨p ++ s, ?_, hPQ s hs⟩
  rw [List.reverse_append, List.append_assoc]

theorem Leaves.unquoted (hp : Unquoted p)
    (h : Leaves drop (stripFrom drop (p.reverse ++ out) u) (p.reverse ++ out) rest P)
    (hPQ : ∀ s, P s → Q (p ++ s)) : Leaves drop (stripFrom drop out (p ++ u)) out rest Q := by
  rw [stripFrom_unquoted hp]
  exact h.behind hPQ

theorem leaves_unquoted (hp : Unquoted p) (h : P p) :
    Leaves drop (stripFrom drop out (p ++ rest)) out rest P :=
  ⟨p, stripFrom_unquoted hp out rest, h⟩

end

/-- The members of a record, be they its first ones or behind a comma. -/
structure StripsMembers (st : Style) (drop : List Char → Bool) (x : List Char → List Char → List Char)
    (es : Entries) : Prop where
  first : ∀ g out rest, IsSpace g → Leaves drop (x (g.reverse ++ '\x7b' :: out) rest) out rest
    (Spells st.plain · (.value (.record es)))
  later : ∀ g out rest, IsSpace g → Leaves drop (x (g.reverse ++ ',' :: out) rest) out rest
    (Spells st.plain · (.moreMembers es))

/-- What is left of a text spells what is left of the part that it spells. -/
def Strips (st : Style) (drop : List Char → Bool) (s : List Char) : Part → Prop
  | .value d => ∀ out rest, (rest.dropWhile isAsciiBlank).head? ≠ some ':' →
    Leaves drop (stripFrom drop out (s ++ rest)) out rest (Spells st.plain · (.value (d.without drop)))
  | .items ds => ∀ out rest, Leaves drop (stripFrom drop out (s ++ rest)) out rest
    (Spells st.plain · (.items (itemsWithout drop ds)))
  | .moreItems ds => ∀ out rest, Leaves drop (stripFrom drop out (s ++ rest)) out rest
    (Spells st.plain · (.moreItems (itemsWithout drop ds)))
  | .members es =>
    StripsMembers st drop (fun out rest => stripFrom drop out (s ++ rest)) (membersWithout drop es)
  | .moreMembers es =>
    (∀ out rest, Leaves drop (stripFrom drop out (s ++ rest)) out rest
      (Spells st.plain · (.moreMembers (membersWithout drop es)))) ∧
    StripsMembers st drop (fun out rest => stripBehind drop out (s ++ rest)) (membersWithout drop es)

theorem StripsMembers.of_eq {x x' : List Char → List Char → List Char} {es : Entries}
    (h : StripsMembers st drop x es) (heq : ∀ out rest, x' out rest = x out rest) :
    StripsMembers st drop x' es := by
  have hx : x' = x := funext fun out => funext (heq out)
  rwa [hx]

/-- A member that is kept stays behind the opening brace, or behind the comma of the one before it. -/
theorem stripsMembers_of_leaves {x : List Char → List Char → List Char} {e : List Char × Document}
    {es : Entries}
    (h : ∀ out rest, Leaves drop (x out rest) out rest (Spells st.plain · (.members (e :: es)))) :
    StripsMembers st drop x (e :: es) := by
  have hout (g : List Char) (c : Char) (out : List Char) :
      g.reverse ++ c :: out = (c :: g).reverse ++ out := by
    simp
  constructor
  · intro g out rest hg
    rw [hout]
    exact (h _ rest).behind fun s hs => .record hg hs
  · intro g out rest hg
    rw [hout]
    exact (h _ rest).behind fun s hs => .nextMember hg hs

theorem stops_moreItems {ds : List Document} (h : Spells st t (.moreItems ds)) :
    ∃ c u, t = c :: u ∧ Stops c := by
  cases h
  all_goals exact ⟨_, _, rfl, by simp [Stops]⟩

theorem stops_moreMembers {es : Entries} (h : Spells st t (.moreMembers es)) :
    ∃ c u, t = c :: u ∧ Stops c := by
  cases h
  all_goals exact ⟨_, _, rfl, by simp [Stops]⟩

theorem Stops.no_colon {g : List Char} {c : Char} (hc : Stops c) (hg : IsSpace g) (rest : List Char) :
    ((g ++ c :: rest).dropWhile isAsciiBlank).head? ≠ some ':' := by
  rw [(span_blank (isAsciiBlank_space hg) (hc.not_blank rest)).2]
  obtain rfl | rfl | rfl := hc <;> simp

theorem stripFrom_dropped {k : List Char} (hk : drop k = true)
    (hfield : ∃ n, field? s = some (k, n) ∧ s.drop n = t) (out : List Char) :
    stripFrom drop out ('"' :: s) = stripBehind drop out t := by
  obtain ⟨n, hfield, hdrop⟩ := hfield
  rw [stripFrom_field hfield hk, hdrop]

/-- A member that is dropped, with whatever follows it. -/
theorem stripFrom_member {k g₁ g₂ g₃ : List Char} {d : Document} {es : Entries} (hk : IsBody k)
    (hdrop : drop k = true) (hg₁ : IsSpace g₁) (hg₂ : IsSpace g₂) (hs : Spells st.blank s (.value d))
    (hg₃ : IsSpace g₃) (ht : Spells st.blank t (.moreMembers es)) (out rest : List Char) :
    stripFrom drop out ('"' :: (k ++ '"' :: (g₁ ++ ':' :: (g₂ ++ (s ++ (g₃ ++ t))))) ++ rest) =
      stripBehind drop out (t ++ rest) := by
  obtain ⟨c, u, rfl, hc⟩ := stops_moreMembers ht
  have h := stripFrom_dropped hdrop (field?_member hk hg₁ hg₂ hs hg₃ hc (u ++ rest)) out
  simpa using h

theorem stripFrom_bare {k g₁ g₂ : List Char} {es : Entries} (hk : IsBody k) (hdrop : drop k = true)
    (hg₁ : IsSpace g₁) (hg₂ : IsSpace g₂) (ht : Spells st.blank t (.moreMembers es))
    (out rest : List Char) :
    stripFrom drop out ('"' :: (k ++ '"' :: (g₁ ++ ':' :: (g₂ ++ t))) ++ rest) =
      stripBehind drop out (t ++ rest) := by
  obtain ⟨c, u, rfl, hc⟩ := stops_moreMembers ht
  have h := stripFrom_dropped hdrop (field?_bare hk hg₁ hg₂ hc (u ++ rest)) out
  simpa using h

/-- A key that is kept. -/
theorem stripFrom_key {k g₁ g₂ g₃ : List Char} {d : Document} {es : Entries} (hk : IsBody k)
    (hdrop : ¬drop k = true) (hg₁ : IsSpace g₁) (hg₂ : IsSpace g₂) (hs : Spells st.blank s (.value d))
    (hg₃ : IsSpace g₃) (ht : Spells st.blank t (.moreMembers es)) (out rest : List Char) :
    stripFrom drop out ('"' :: (k ++ '"' :: (g₁ ++ ':' :: (g₂ ++ (s ++ (g₃ ++ t))))) ++ rest) =
      stripFrom drop (('"' :: (k ++ '"' :: (g₁ ++ ':' :: g₂))).reverse ++ out)
        (s ++ (g₃ ++ (t ++ rest))) := by
  obtain ⟨c, u, rfl, hc⟩ := stops_moreMembers ht
  obtain ⟨n, hfield, -⟩ := field?_member hk hg₁ hg₂ hs hg₃ hc (u ++ rest)
  have hkept : ∀ k' n', field? (k ++ '"' :: (g₁ ++ ':' :: (g₂ ++ (s ++ (g₃ ++ c :: (u ++ rest)))))) =
      some (k', n') → ¬drop k' = true := by
    intro k' n' hfield'
    rw [hfield] at hfield'
    cases hfield'
    exact hdrop
  have hcolon : Unquoted (g₁ ++ ':' :: g₂) :=
    (unquoted_space hg₁).append (.cons (by decide) (unquoted_space hg₂))
  have hgaps (out : List Char) : stripFrom drop out (g₁ ++ ':' :: g₂ ++ (s ++ (g₃ ++ c :: (u ++ rest)))) =
      stripFrom drop ((g₁ ++ ':' :: g₂).reverse ++ out) (s ++ (g₃ ++ c :: (u ++ rest))) :=
    stripFrom_unquoted hcolon out _
  rw [List.append_assoc, List.cons_append] at hgaps
  simp only [List.append_assoc, List.cons_append]
  rw [stripFrom_literal hk hkept, hgaps]
  simp

theorem strips_of_spells (hextra : ∀ k, st.extra k → drop k = true) (hbare : ∀ k, st.bare k → drop k = true)
    {p : Part} (h : Spells st.blank s p) : Strips st drop s p := by
  induction h with
  | word hw =>
    intro out rest _
    exact leaves_unquoted (unquoted_word hw) (.word hw)
  | @text b hb =>
    intro out rest hrest
    have hkept : ∀ k n, field? (b ++ '"' :: rest) = some (k, n) → ¬drop k = true := by
      intro k n hfield
      rw [field?_none hb hrest] at hfield
      contradiction
    refine ⟨'"' :: (b ++ ['"']), ?_, .text hb⟩
    rw [← stripFrom_literal hb hkept]
    simp
  | emptyList hg =>
    intro out rest _
    exact leaves_unquoted (unquoted_marks (by decide) hg (by decide)) (.emptyList hg)
  | @list g s ds hg _ ih =>
    intro out rest _
    have htext : '[' :: (g ++ s) ++ rest = '[' :: g ++ (s ++ rest) := by simp
    rw [htext]
    exact .unquoted (.cons (by decide) (unquoted_space hg)) (ih _ rest) fun s hs => .list hg hs
  | emptyRecord hg =>
    intro out rest _
    exact leaves_unquoted (unquoted_marks (by decide) hg (by decide)) (.emptyRecord hg)
  | @record g s es hg _ ih =>
    intro out rest _
    have hbrace : ('\x7b' : Char) ≠ '"' := by decide
    rw [List.cons_append, List.append_assoc, stripFrom_char hbrace, stripFrom_unquoted (unquoted_space hg)]
    exact ih.first g out rest hg
  | @item s g t d ds _ hg ht ihs iht =>
    intro out rest
    obtain ⟨c, u, rfl, hc⟩ := stops_moreItems ht
    rw [List.append_assoc, List.append_assoc]
    obtain ⟨s', hs, hspell⟩ := ihs out (g ++ (c :: u ++ rest)) (hc.no_colon hg _)
    obtain ⟨t', ht, hspell'⟩ := iht (g.reverse ++ (s'.reverse ++ out)) rest
    refine ⟨s' ++ (g ++ t'), ?_, .item hspell hg hspell'⟩
    rw [hs, stripFrom_unquoted (unquoted_space hg), ht]
    simp
  | lastItem =>
    intro out rest
    exact leaves_unquoted (unquoted_mark (by decide)) .lastItem
  | trailingItem htrail hg =>
    intro out rest
    exact leaves_unquoted (unquoted_marks (by decide) hg (by decide)) (.trailingItem htrail hg)
  | @nextItem g s ds hg _ ih =>
    intro out rest
    have htext : ',' :: (g ++ s) ++ rest = ',' :: g ++ (s ++ rest) := by simp
    rw [htext]
    exact .unquoted (.cons (by decide) (unquoted_space hg)) (ih _ rest) fun s hs => .nextItem hg hs
  | @member k g₁ g₂ s g₃ t d es hk hg₁ hg₂ hs hg₃ ht ihs iht =>
    rw [Strips, membersWithout]
    split
    · next hdrop => exact iht.2.of_eq (stripFrom_member hk hdrop hg₁ hg₂ hs hg₃ ht)
    · next hdrop =>
      refine stripsMembers_of_leaves fun out rest => ?_
      obtain ⟨c, u, htext, hc⟩ := stops_moreMembers ht
      have hcolon : ((g₃ ++ (t ++ rest)).dropWhile isAsciiBlank).head? ≠ some ':' := by
        rw [htext]
        exact hc.no_colon hg₃ _
      rw [stripFrom_key hk hdrop hg₁ hg₂ hs hg₃ ht]
      obtain ⟨s', hs, hspell⟩ := ihs (('"' :: (k ++ '"' :: (g₁ ++ ':' :: g₂))).reverse ++ out)
        (g₃ ++ (t ++ rest)) hcolon
      rw [hs, stripFrom_unquoted (unquoted_space hg₃)]
      obtain ⟨t', ht, hspell'⟩ := iht.1 (g₃.reverse ++ (s'.reverse ++
        (('"' :: (k ++ '"' :: (g₁ ++ ':' :: g₂))).reverse ++ out))) rest
      refine ⟨_, ?_, .member hk hg₁ hg₂ hspell hg₃ hspell'⟩
      rw [ht]
      simp
  | extra hk hx hg₁ hg₂ hs hg₃ ht ihs iht =>
    exact iht.2.of_eq (stripFrom_member hk (hextra _ hx) hg₁ hg₂ hs hg₃ ht)
  | bare hk hx hg₁ hg₂ ht iht =>
    exact iht.2.of_eq (stripFrom_bare hk (hbare _ hx) hg₁ hg₂ ht)
  | lastMember =>
    refine ⟨fun out rest => leaves_unquoted (unquoted_mark (by decide)) .lastMember, ?_, ?_⟩
    · intro g out rest hg
      have hcomma : dropComma (g.reverse ++ '\x7b' :: out) = '\x7b' :: out := dropComma_space hg _
      have hs : Spells st.plain ('\x7b' :: ([] ++ ['\x7d'])) (.value (.record [])) :=
        .emptyRecord Json.isSpace_nil
      refine ⟨_, ?_, hs⟩
      rw [List.singleton_append, stripBehind, if_neg (by simp), hcomma, stripFrom_char (by decide)]
      rfl
    · intro g out rest hg
      have hcomma : dropComma (g.reverse ++ ',' :: out) = out := dropComma_space hg _
      refine ⟨_, ?_, .lastMember⟩
      rw [List.singleton_append, stripBehind, if_neg (by simp), hcomma, stripFrom_char (by decide)]
      rfl
  | @trailingMember g htrail hg =>
    have hbehind (out rest : List Char) : stripBehind drop out (',' :: (g ++ ['\x7d']) ++ rest) =
        stripFrom drop ((g ++ ['\x7d']).reverse ++ out) rest := by
      have hunquoted : Unquoted (g ++ ['\x7d']) :=
        (unquoted_space hg).append (unquoted_mark (by decide))
      rw [← stripFrom_unquoted hunquoted]
      rfl
    refine ⟨fun out rest => ?_, ?_, ?_⟩
    · exact leaves_unquoted (unquoted_marks (by decide) hg (by decide)) (.trailingMember htrail hg)
    · intro g' out rest hg'
      refine ⟨_, ?_, .emptyRecord (Json.isSpace_append hg' hg)⟩
      rw [hbehind]
      simp
    · intro g' out rest hg'
      refine ⟨_, ?_, .trailingMember htrail (Json.isSpace_append hg' hg)⟩
      rw [hbehind]
      simp
  | @nextMember g s es hg _ ih =>
    have hcomma : (',' : Char) ≠ '"' := by decide
    have hbehind (out rest : List Char) : stripBehind drop out (',' :: (g ++ s) ++ rest) =
        stripFrom drop (g.reverse ++ out) (s ++ rest) := by
      rw [← stripFrom_unquoted (unquoted_space hg), ← List.append_assoc]
      rfl
    refine ⟨fun out rest => ?_, ?_, ?_⟩
    · rw [List.cons_append, List.append_assoc, stripFrom_char hcomma,
        stripFrom_unquoted (unquoted_space hg)]
      exact ih.later g out rest hg
    · intro g' out rest hg'
      rw [hbehind, ← List.append_assoc, ← List.reverse_append]
      exact ih.first (g' ++ g) out rest (Json.isSpace_append hg' hg)
    · intro g' out rest hg'
      rw [hbehind, ← List.append_assoc, ← List.reverse_append]
      exact ih.later (g' ++ g) out rest (Json.isSpace_append hg' hg)

/-- Without its fields a text spells the document without these members. -/
theorem stripFields_whole (hextra : ∀ k, st.extra k → drop k = true)
    (hbare : ∀ k, st.bare k → drop k = true) {d : Document} (h : st.blank.Whole s d) :
    st.plain.Whole (stripFields drop s) (d.without drop) := by
  obtain ⟨g, t, g', rfl, hg, hg', ht⟩ := h
  have hcolon : (g'.dropWhile isAsciiBlank).head? ≠ some ':' := by
    have hspan := (span_blank (s := []) (isAsciiBlank_space hg') (by simp)).2
    rw [List.append_nil] at hspan
    simp [hspan]
  obtain ⟨t', htext, ht'⟩ := strips_of_spells hextra hbare ht (g.reverse ++ []) g' hcolon
  refine ⟨g, t', g', ?_, hg, hg', ht'⟩
  have hend (out : List Char) : stripFrom drop out g' = (g'.reverse ++ out).reverse := by
    have h : stripFrom drop out (g' ++ []) = stripFrom drop (g'.reverse ++ out) [] :=
      stripFrom_unquoted (unquoted_space hg') out []
    rwa [List.append_nil] at h
  have hstart : stripFields drop (g ++ (t ++ g')) = stripFrom drop (g.reverse ++ []) (t ++ g') :=
    stripFrom_unquoted (unquoted_space hg) [] (t ++ g')
  rw [hstart, htext, hend]
  simp

end MockRedirect.Template
