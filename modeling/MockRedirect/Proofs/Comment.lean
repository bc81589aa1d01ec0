import MockRedirect.Proofs.Reading
import MockRedirect.Template.Style
/-! The comments of a text are found one after the other. Taking them out leaves the tokens as they are and blanks
between them. -/
namespace MockRedirect.Template
open Document

/-! ### Literals -/

/-- A literal reaches up to and with its closing quote. -/
theorem literalLength_body {b : List Char} (hb : IsBody b) (s : List Char) :
    literalLength (b ++ '"' :: s) = b.length + 1 := by
  induction hb with
  | nil => rfl
  | escape c _ ih => simp [literalLength, ih]
  | char hquote hslash _ ih => simp [literalLength, ih, hquote, hslash]

/-- A character that starts no escape is no backslash. -/
theorem ne_backslash {c : Char} {s : List Char} (hone : c = '\\' → s = [] → False)
    (hescape : ∀ d t, c = '\\' → s = d :: t → False) : c ≠ '\\' := by
  rintro rfl
  cases s with
  | nil => exact hone rfl rfl
  | cons d s => exact hescape d s rfl rfl

/-! ### Comments -/

theorem innerLength?_append {inner : List Char} (h : ¬['*', '/'] <:+: inner) (s : List Char) :
    innerLength? (inner ++ '*' :: '/' :: s) = some inner.length := by
  induction inner with
  | nil => rfl
  | cons c inner ih =>
    have hc : ¬(c = '*' ∧ (inner ++ '*' :: '/' :: s).head? = some '/') := by
      rintro ⟨rfl, hhead⟩
      cases inner with
      | nil => cases hhead
      | cons d inner =>
        cases hhead
        exact h (List.prefix_append ['*', '/'] inner).isInfix
    have hinner : ¬['*', '/'] <:+: inner := fun hin => h (hin.trans (List.suffix_cons c inner).isInfix)
    rw [List.cons_append, innerLength?, if_neg hc, ih hinner]
    rfl

/-- A length that is found is that of the text before the first end. -/
theorem exists_of_innerLength? {s : List Char} {n : Nat} (h : innerLength? s = some n) :
    ∃ inner r, s = inner ++ '*' :: '/' :: r ∧ ¬['*', '/'] <:+: inner ∧ n = inner.length := by
  induction s generalizing n with
  | nil => cases h
  | cons c s ih =>
    rw [innerLength?] at h
    split at h
    · next hend =>
      cases h
      obtain ⟨r, rfl⟩ := List.head?_eq_some_iff.1 hend.2
      exact ⟨[], r, by rw [hend.1]; rfl, by simp, rfl⟩
    · next hend =>
      obtain ⟨n, hn, rfl⟩ := Option.map_eq_some_iff.1 h
      obtain ⟨inner, r, rfl, hinner, rfl⟩ := ih hn
      refine ⟨c :: inner, r, rfl, fun hin => ?_, rfl⟩
      obtain hstart | hin := List.infix_cons_iff.1 hin
      · obtain ⟨rfl, hslash⟩ := List.cons_prefix_cons.1 hstart
        cases inner with
        | nil => cases List.prefix_nil.1 hslash
        | cons d inner =>
          obtain ⟨rfl, -⟩ := List.cons_prefix_cons.1 hslash
          exact hend ⟨rfl, rfl⟩
      · exact hinner hin

theorem comment?_append {inner : List Char} (h : ¬['*', '/'] <:+: inner) (s : List Char) :
    comment? ('/' :: '*' :: (inner ++ '*' :: '/' :: s)) = some inner := by
  rw [comment?, innerLength?_append h]
  simp

theorem opensComment_mark (s : List Char) : opensComment ('/' :: '*' :: s) = true := rfl

theorem opensComment_cons (c : Char) (s : List Char) :
    opensComment (c :: s) = true ↔ c = '/' ∧ s.head? = some '*' := by
  rw [opensComment, Text.startsWith, Option.isSome_iff_exists, List.head?_eq_some_iff, ← exists_and_left]
  exact exists_congr fun r => Text.after?_eq_some.trans List.cons_eq_cons

theorem not_opensComment {c : Char} (hslash : c ≠ '/') (s : List Char) : ¬opensComment (c :: s) = true :=
  fun hopen => hslash ((opensComment_cons c s).1 hopen).1

/-- A pass turns a text into another one, whatever follows it. -/
def Passes (f : List Char → List Char) (s s' : List Char) : Prop := ∀ rest, f (s ++ rest) = s' ++ f rest

section
variable {f : List Char → List Char} {s s' t t' : List Char}

theorem Passes.nil : Passes f [] [] := fun _ => rfl

theorem Passes.append (h : Passes f s s') (h' : Passes f t t') : Passes f (s ++ t) (s' ++ t') := by
  intro rest
  rw [List.append_assoc, h, h', List.append_assoc]

/-- A key with what follows it. -/
theorem Passes.key {b b' : List Char} (hb : Passes f ('"' :: (b ++ ['"'])) ('"' :: (b' ++ ['"'])))
    (h : Passes f s s') : Passes f ('"' :: (b ++ '"' :: s)) ('"' :: (b' ++ '"' :: s')) := by
  have hkey := hb.append h
  simpa using hkey

theorem Passes.cons {c : Char} (hc : Passes f [c] [c]) (h : Passes f s s') :
    Passes f (c :: s) (c :: s') :=
  hc.append h

/-- A key and its value, with the gaps between them and what follows. -/
theorem Passes.member {k k' g₁ g₁' g₂ g₂' g₃ g₃' : List Char}
    (hk : Passes f ('"' :: (k ++ ['"'])) ('"' :: (k' ++ ['"']))) (hcolon : Passes f [':'] [':'])
    (hg₁ : Passes f g₁ g₁') (hg₂ : Passes f g₂ g₂') (hs : Passes f s s') (hg₃ : Passes f g₃ g₃')
    (ht : Passes f t t') : Passes f ('"' :: (k ++ '"' :: (g₁ ++ ':' :: (g₂ ++ (s ++ (g₃ ++ t))))))
      ('"' :: (k' ++ '"' :: (g₁' ++ ':' :: (g₂' ++ (s' ++ (g₃' ++ t')))))) :=
  hk.key (hg₁.append (hcolon.cons (hg₂.append (hs.append (hg₃.append ht)))))

end

theorem go_copy (f : List Char → List Char) (s t : List Char) :
    replaceComments.go f (s ++ t) (.copy s.length) = s ++ replaceComments.go f t (.copy 0) := by
  induction s with
  | nil => rfl
  | cons c s ih => exact congrArg (c :: ·) ih

theorem go_skip (f : List Char → List Char) (s t : List Char) :
    replaceComments.go f (s ++ t) (.skip s.length) = replaceComments.go f t (.copy 0) := by
  induction s with
  | nil => cases t <;> rfl
  | cons c s ih => exact ih

/-! ### Comments replaced -/

section
variable (f : List Char → List Char)

theorem replaceComments_other {c : Char} {s : List Char} (hquote : c ≠ '"') (hopen : ¬opensComment (c :: s) = true) :
    replaceComments f (c :: s) = c :: replaceComments f s := by
  rw [replaceComments, replaceComments.go, if_neg hquote, if_neg hopen]
  · rfl
  · simp
  · simp

theorem replaceComments_char {c : Char} (hquote : c ≠ '"') (hslash : c ≠ '/') :
    Passes (replaceComments f) [c] [c] :=
  fun rest => replaceComments_other f hquote (not_opensComment hslash rest)

/-- A literal stays as it is, also one that is never closed. -/
theorem replaceComments_quote {b s : List Char} (hb : literalLength (b ++ s) = b.length) :
    replaceComments f ('"' :: (b ++ s)) = '"' :: (b ++ replaceComments f s) := by
  have hgo (cs : List Char) : replaceComments f ('"' :: cs) =
      '"' :: replaceComments.go f cs (.copy (literalLength cs)) := rfl
  rw [hgo, hb, go_copy]
  rfl

theorem replaceComments_literal {b : List Char} (hb : IsBody b) :
    Passes (replaceComments f) ('"' :: (b ++ ['"'])) ('"' :: (b ++ ['"'])) := by
  intro rest
  have hlength : literalLength (b ++ ['"'] ++ rest) = (b ++ ['"']).length := by
    rw [List.append_assoc, List.singleton_append, literalLength_body hb]
    simp
  exact replaceComments_quote f hlength

theorem replaceComments_comment {inner : List Char} (h : ¬['*', '/'] <:+: inner) :
    Passes (replaceComments f) ('/' :: '*' :: (inner ++ ['*', '/'])) (f inner) := by
  intro rest
  have hcomment : comment? ('/' :: '*' :: (inner ++ ['*', '/']) ++ rest) = some inner := by
    have happend := comment?_append h rest
    simpa using happend
  have hskip := go_skip f ('*' :: (inner ++ ['*', '/'])) rest
  have hlength : ('*' :: (inner ++ ['*', '/'])).length = inner.length + 3 := by simp
  rw [hlength] at hskip
  rw [List.cons_append, List.cons_append] at hcomment ⊢
  rw [replaceComments, replaceComments.go, if_neg (by decide), if_pos (opensComment_mark _), hcomment]
  · exact congrArg (f inner ++ ·) hskip
  · simp
  · simp

theorem replaceComments_unclosed {s : List Char} (hs : innerLength? s = none) :
    replaceComments f ('/' :: '*' :: s) = '/' :: '*' :: s := by
  rw [replaceComments, replaceComments.go, if_neg (by decide), if_pos (opensComment_mark s), comment?, hs]
  · rfl
  · simp
  · simp

end

/-! ### Comments listed -/

/-- The comments of a text that stands behind another one, each with all that is before it. -/
def commentsBehind (before s : List Char) : List (List Char × List Char) := comments.go s (.copy 0) before.reverse

theorem comments_eq (s : List Char) : comments s = commentsBehind [] s := rfl

theorem commentsBehind_nil (before : List Char) : commentsBehind before [] = [] := rfl

theorem comments_go_copy (s t before : List Char) :
    comments.go (s ++ t) (.copy s.length) before.reverse = commentsBehind (before ++ s) t := by
  induction s generalizing before with
  | nil => rw [List.append_nil]; rfl
  | cons c s ih =>
    have h := ih (before ++ [c])
    rw [List.reverse_append, List.append_assoc] at h
    exact h

theorem comments_go_skip (s t before : List Char) :
    comments.go (s ++ t) (.skip s.length) before.reverse = commentsBehind (before ++ s) t := by
  induction s generalizing before with
  | nil => rw [List.append_nil]; cases t <;> rfl
  | cons c s ih =>
    have h := ih (before ++ [c])
    rw [List.reverse_append, List.append_assoc] at h
    exact h

theorem commentsBehind_other {c : Char} {s : List Char} (hquote : c ≠ '"') (hopen : ¬opensComment (c :: s) = true)
    (before : List Char) : commentsBehind before (c :: s) = commentsBehind (before ++ [c]) s := by
  rw [commentsBehind, comments.go, if_neg hquote, if_neg hopen, commentsBehind, List.reverse_append]
  · rfl
  · simp
  · simp

theorem commentsBehind_char {c : Char} (hquote : c ≠ '"') (hslash : c ≠ '/') (before s : List Char) :
    commentsBehind before (c :: s) = commentsBehind (before ++ [c]) s :=
  commentsBehind_other hquote (not_opensComment hslash s) before

/-- A literal is passed over, also one that is never closed. -/
theorem commentsBehind_quote (before : List Char) {b s : List Char} (hb : literalLength (b ++ s) = b.length) :
    commentsBehind before ('"' :: (b ++ s)) = commentsBehind (before ++ '"' :: b) s := by
  have hgo : commentsBehind before ('"' :: (b ++ s)) =
      comments.go (b ++ s) (.copy (literalLength (b ++ s))) (before ++ ['"']).reverse := by
    rw [List.reverse_append]
    rfl
  rw [hgo, hb, comments_go_copy, List.append_assoc, List.singleton_append]

theorem commentsBehind_literal {b : List Char} (hb : IsBody b) (before s : List Char) :
    commentsBehind before ('"' :: (b ++ '"' :: s)) = commentsBehind (before ++ '"' :: (b ++ ['"'])) s := by
  have hlength : literalLength (b ++ ['"'] ++ s) = (b ++ ['"']).length := by
    rw [List.append_assoc, List.singleton_append, literalLength_body hb]
    simp
  have h := commentsBehind_quote before hlength
  rwa [List.append_assoc, List.singleton_append] at h

theorem commentsBehind_comment {inner : List Char} (h : ¬['*', '/'] <:+: inner) (before s : List Char) :
    commentsBehind before ('/' :: '*' :: (inner ++ '*' :: '/' :: s)) =
      (before, inner) :: commentsBehind (before ++ '/' :: '*' :: (inner ++ ['*', '/'])) s := by
  have hskip := comments_go_skip ('*' :: (inner ++ ['*', '/'])) s (before ++ ['/'])
  have hlength : ('*' :: (inner ++ ['*', '/'])).length = inner.length + 3 := by simp
  rw [hlength, List.reverse_append, List.cons_append, List.append_assoc, List.append_assoc] at hskip
  rw [commentsBehind, comments.go, if_neg (by decide), if_pos (opensComment_mark _), comment?_append h]
  · rw [List.reverse_reverse]
    exact congrArg ((before, inner) :: ·) hskip
  · simp
  · simp

theorem commentsBehind_unclosed {s : List Char} (hs : innerLength? s = none) (before : List Char) :
    commentsBehind before ('/' :: '*' :: s) = [] := by
  rw [commentsBehind, comments.go, if_neg (by decide), if_pos (opensComment_mark s), comment?, hs]
  · rfl
  · simp
  · simp

/-! ### Comments taken out -/

/-- Characters that open neither a literal nor a comment. -/
theorem stripComments_plain {s : List Char} (h : ∀ c ∈ s, c ≠ '"' ∧ c ≠ '/') :
    Passes stripComments s s := by
  induction s with
  | nil => exact .nil
  | cons c s ih =>
    rw [List.forall_mem_cons] at h
    exact .cons (replaceComments_char _ h.1.1 h.1.2) (ih h.2)

/-- Only the blanks of a gap remain. -/
theorem stripComments_gap {g : List Char} (h : IsGap g) :
    ∃ g', IsSpace g' ∧ Passes stripComments g g' := by
  induction h with
  | nil => exact ⟨[], by simp [IsSpace], .nil⟩
  | @blank c _ hc _ ih =>
    obtain ⟨g', hg', hpass⟩ := ih
    refine ⟨c :: g', List.forall_mem_cons.2 ⟨hc, hg'⟩, .cons (replaceComments_char _ ?_ ?_) hpass⟩ <;>
      rintro rfl <;> contradiction
  | @comment inner s hinner _ ih =>
    obtain ⟨g', hg', hpass⟩ := ih
    refine ⟨g', hg', ?_⟩
    have h : Passes stripComments _ g' := (replaceComments_comment _ hinner).append hpass
    simpa using h

theorem stripComments_word {w : List Char} (hw : IsWord w) : Passes stripComments w w := by
  refine stripComments_plain fun c hc => ?_
  have hword := hw.2 c hc
  constructor <;> rintro rfl <;> contradiction

/-! ### Spelled texts -/

variable {st : Style}

/-- Without its comments a text spells the same. -/
theorem stripComments_spells (hgap : ∀ g, st.gap g → IsGap g) {s : List Char} {p : Part}
    (h : Spells st s p) : ∃ s', Passes stripComments s s' ∧ Spells st.blank s' p := by
  have hpass {g : List Char} (hg : st.gap g) : ∃ g', IsSpace g' ∧ Passes stripComments g g' :=
    stripComments_gap (hgap g hg)
  have hcolon : Passes stripComments [':'] [':'] := replaceComments_char _ (by decide) (by decide)
  have hmark {c : Char} (hc : c ∈ [',', '[', ']', '\x7b', '\x7d']) : Passes stripComments [c] [c] := by
    refine replaceComments_char _ ?_ ?_ <;> rintro rfl <;> contradiction
  induction h with
  | word hw => exact ⟨_, stripComments_word hw, .word hw⟩
  | text hb => exact ⟨_, replaceComments_literal _ hb, .text hb⟩
  | emptyList hg =>
    obtain ⟨g', hg', hgp⟩ := hpass hg
    exact ⟨_, .cons (hmark (by simp)) (hgp.append (hmark (by simp))), .emptyList hg'⟩
  | list hg _ ih =>
    obtain ⟨g', hg', hgp⟩ := hpass hg
    obtain ⟨s', hsp, hs'⟩ := ih
    exact ⟨_, .cons (hmark (by simp)) (hgp.append hsp), .list hg' hs'⟩
  | emptyRecord hg =>
    obtain ⟨g', hg', hgp⟩ := hpass hg
    exact ⟨_, .cons (hmark (by simp)) (hgp.append (hmark (by simp))), .emptyRecord hg'⟩
  | record hg _ ih =>
    obtain ⟨g', hg', hgp⟩ := hpass hg
    obtain ⟨s', hsp, hs'⟩ := ih
    exact ⟨_, .cons (hmark (by simp)) (hgp.append hsp), .record hg' hs'⟩
  | item _ hg _ ihs iht =>
    obtain ⟨g', hg', hgp⟩ := hpass hg
    obtain ⟨s', hsp, hs'⟩ := ihs
    obtain ⟨t', htp, ht'⟩ := iht
    exact ⟨_, hsp.append (hgp.append htp), .item hs' hg' ht'⟩
  | lastItem => exact ⟨_, hmark (by simp), .lastItem⟩
  | trailingItem htrail hg =>
    obtain ⟨g', hg', hgp⟩ := hpass hg
    exact ⟨_, .cons (hmark (by simp)) (hgp.append (hmark (by simp))), .trailingItem htrail hg'⟩
  | nextItem hg _ ih =>
    obtain ⟨g', hg', hgp⟩ := hpass hg
    obtain ⟨s', hsp, hs'⟩ := ih
    exact ⟨_, .cons (hmark (by simp)) (hgp.append hsp), .nextItem hg' hs'⟩
  | member hk hg₁ hg₂ _ hg₃ _ ihs iht =>
    obtain ⟨g₁', hg₁', hgp₁⟩ := hpass hg₁
    obtain ⟨g₂', hg₂', hgp₂⟩ := hpass hg₂
    obtain ⟨s', hsp, hs'⟩ := ihs
    obtain ⟨g₃', hg₃', hgp₃⟩ := hpass hg₃
    obtain ⟨t', htp, ht'⟩ := iht
    exact ⟨_, (replaceComments_literal _ hk).member hcolon hgp₁ hgp₂ hsp hgp₃ htp,
      .member hk hg₁' hg₂' hs' hg₃' ht'⟩
  | extra hk hx hg₁ hg₂ _ hg₃ _ ihs iht =>
    obtain ⟨g₁', hg₁', hgp₁⟩ := hpass hg₁
    obtain ⟨g₂', hg₂', hgp₂⟩ := hpass hg₂
    obtain ⟨s', hsp, hs'⟩ := ihs
    obtain ⟨g₃', hg₃', hgp₃⟩ := hpass hg₃
    obtain ⟨t', htp, ht'⟩ := iht
    exact ⟨_, (replaceComments_literal _ hk).member hcolon hgp₁ hgp₂ hsp hgp₃ htp,
      .extra hk hx hg₁' hg₂' hs' hg₃' ht'⟩
  | bare hk hx hg₁ hg₂ _ iht =>
    obtain ⟨g₁', hg₁', hgp₁⟩ := hpass hg₁
    obtain ⟨g₂', hg₂', hgp₂⟩ := hpass hg₂
    obtain ⟨t', htp, ht'⟩ := iht
    exact ⟨_, (replaceComments_literal _ hk).key (hgp₁.append (hcolon.cons (hgp₂.append htp))),
      .bare hk hx hg₁' hg₂' ht'⟩
  | lastMember => exact ⟨_, hmark (by simp), .lastMember⟩
  | trailingMember htrail hg =>
    obtain ⟨g', hg', hgp⟩ := hpass hg
    exact ⟨_, .cons (hmark (by simp)) (hgp.append (hmark (by simp))), .trailingMember htrail hg'⟩
  | nextMember hg _ ih =>
    obtain ⟨g', hg', hgp⟩ := hpass hg
    obtain ⟨s', hsp, hs'⟩ := ih
    exact ⟨_, .cons (hmark (by simp)) (hgp.append hsp), .nextMember hg' hs'⟩

theorem stripComments_whole (hgap : ∀ g, st.gap g → IsGap g) {s : List Char} {d : Document}
    (h : st.Whole s d) : st.blank.Whole (stripComments s) d := by
  obtain ⟨g, t, g', rfl, hg, hg', ht⟩ := h
  obtain ⟨u, hu, hgp⟩ := stripComments_gap (hgap g hg)
  obtain ⟨u', hu', hgp'⟩ := stripComments_gap (hgap g' hg')
  obtain ⟨t', htp, ht'⟩ := stripComments_spells hgap ht
  refine ⟨u, t', u', ?_, hu, hu', ht'⟩
  have h := (hgp.append (htp.append hgp')) []
  simpa [stripComments, replaceComments, replaceComments.go] using h

end MockRedirect.Template
