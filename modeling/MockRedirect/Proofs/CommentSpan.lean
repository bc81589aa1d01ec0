import MockRedirect.Proofs.Bytewise
import MockRedirect.Proofs.Condense
/-! Comments are found at their byte offsets: where each one starts and ends is told by the text before it and its
inside. So they are replaced, and listed, as the scanners on characters do it. -/
namespace MockRedirect.Template.Bytewise
open Text

variable {out p s t : List Char} {c : Char} {i : Nat} {k : Kept}

/-! ### Texts with comments -/

/-- A text as it is searched for comments. -/
inductive Commented : List Char → Prop
  | nil : Commented []
  | char {c : Char} {s : List Char} (hquote : c ≠ '"') (hopen : ¬opensComment (c :: s) = true) (h : Commented s) :
    Commented (c :: s)
  | literal {b s : List Char} (hb : Reaches b s) (h : Commented s) : Commented ('"' :: (b ++ s))
  | comment {inner s : List Char} (hinner : ¬['*', '/'] <:+: inner) (h : Commented s) :
    Commented ('/' :: '*' :: (inner ++ '*' :: '/' :: s))
  | unclosed {s : List Char} (hs : innerLength? s = none) : Commented ('/' :: '*' :: s)

theorem commented (s : List Char) : Commented s := by
  induction hlength : s.length using Nat.strongRecOn generalizing s with
  | ind n ih =>
    subst hlength
    cases s with
    | nil => exact .nil
    | cons c s =>
      by_cases hquote : c = '"'
      · subst hquote
        obtain ⟨b, s, rfl, hb⟩ := exists_reaches s
        exact .literal hb (ih s.length (by simp only [List.length_cons, List.length_append]; omega) s rfl)
      · by_cases hopen : opensComment (c :: s) = true
        · obtain ⟨rfl, hstar⟩ := (opensComment_cons c s).1 hopen
          obtain ⟨s, rfl⟩ := List.head?_eq_some_iff.1 hstar
          cases hs : innerLength? s with
          | none => exact .unclosed hs
          | some n =>
            obtain ⟨inner, r, rfl, hinner, -⟩ := exists_of_innerLength? hs
            exact .comment hinner (ih r.length (by simp only [List.length_cons, List.length_append]; omega) r rfl)
        · exact .char hquote hopen (ih s.length (Nat.lt_succ_self _) s rfl)

/-- Where a comment starts and where it ends, by the text before it and its inside. -/
def span (comment : List Char × List Char) : Nat × Nat :=
  (size comment.1, size comment.1 + 2 + size comment.2 + 2)

theorem size_comment (p inner : List Char) :
    size (p ++ '/' :: '*' :: (inner ++ ['*', '/'])) = size p + 2 + size inner + 2 := by
  simp only [size_append, size_ascii (show '/'.toNat < 0x80 by decide), size_ascii (show '*'.toNat < 0x80 by decide),
    size_nil]
  omega

theorem commentLoop_other {x : Nat} (h : byte? t i = some x) (hquote : x ≠ '"'.toNat)
    (hopen : ¬(x = '/'.toNat ∧ byte? t (i + 1) = some '*'.toNat)) (spans : List (Nat × Nat)) :
    (commentLoop t).round i spans = pure (.next (i + 1) spans) := by
  dsimp only [commentLoop]
  rw [byte_eq_pure_iff.2 h, pure_bind, if_neg hquote, if_neg hopen]

theorem commentLoop_quote (h : byte? t i = some '"'.toNat) {stop : Nat} (hend : literalEnd t i = pure stop)
    (spans : List (Nat × Nat)) : (commentLoop t).round i spans = pure (.next stop spans) := by
  dsimp only [commentLoop]
  rw [byte_eq_pure_iff.2 h, pure_bind, if_pos rfl, hend, pure_bind]

theorem commentLoop_mark (h : At t i ('/' :: '*' :: s)) (spans : List (Nat × Nat)) : (commentLoop t).round i spans =
    match innerLength? s with
    | none => pure (.done spans)
    | some n =>
      pure (.next (i + 2 + size (s.take n) + 2) (spans ++ [(i, i + 2 + size (s.take n) + 2)])) := by
  have hstar := h.ascii (by decide)
  have hslice := (hstar.ascii (by decide)).slice_end
  dsimp only [commentLoop]
  rw [byte_eq_pure_iff.2 (h.byte?_ascii (by decide)), pure_bind, if_neg (by decide),
    if_pos ⟨rfl, hstar.byte?_ascii (by decide)⟩, hslice]
  refine (pure_bind s _).trans ?_
  cases innerLength? s <;> rfl

theorem commentLoop_char (hquote : c ≠ '"') (hopen : ¬opensComment (c :: s) = true) (h : At t i (c :: s))
    (spans : List (Nat × Nat)) :
    (commentLoop t).run i spans = (commentLoop t).run (i + (utf8Char c).length) spans := by
  by_cases hslash : c = '/'
  · subst hslash
    -- a slash that opens no comment is looked at with the byte behind it
    have hstar : ¬('/'.toNat = '/'.toNat ∧ byte? t (i + 1) = some '*'.toNat) := fun hmark =>
      hopen ((opensComment_cons _ _).2 ⟨rfl, ((h.ascii (by decide)).byte?_eq_iff (by decide)).1 hmark.2⟩)
    exact Loop.run_next h.lt (commentLoop_other (h.byte?_ascii (by decide)) (by decide) hstar spans)
  · exact Loop.run_char (l := commentLoop t) h fun x hx j st hbyte =>
      commentLoop_other hbyte (ne_of_mem_utf8Char hx (by decide) hquote)
        (fun hmark => ne_of_mem_utf8Char hx (by decide) hslash hmark.1) st

/-- From here on the loop adds the comments that the scanner on characters lists, with their offsets. -/
theorem commentLoop_run (hs : Commented s) (h : p ++ s = t) (spans : List (Nat × Nat)) :
    (commentLoop t).run (size p) spans = pure (spans ++ (commentsBehind p s).map span) := by
  induction hs generalizing p spans with
  | nil =>
    rw [Loop.run_end (l := commentLoop t) (by rw [← h, List.append_nil]; exact Nat.le_refl _), commentsBehind_nil,
      List.map_nil, List.append_nil]
    rfl
  | @char c s hquote hopen _ ih =>
    have hnext := ih (p := p ++ [c]) (by rw [← h, List.append_assoc]; rfl) spans
    rw [commentLoop_char hquote hopen ⟨p, h, rfl⟩, commentsBehind_other hquote hopen, ← hnext, size_append,
      size_cons, size_nil, Nat.add_zero]
  | @literal b s hb _ ih =>
    have hat : At t (size p) ('"' :: (b ++ s)) := ⟨p, h, rfl⟩
    have hnext := ih (p := p ++ '"' :: b) (by rw [← h, List.append_assoc]; rfl) spans
    rw [Loop.run_next hat.lt (commentLoop_quote (hat.byte?_ascii (by decide)) (literalEnd_reaches hb hat) spans),
      commentsBehind_quote p hb, ← hnext, size_append]
  | @comment inner s hinner _ ih =>
    have hat : At t (size p) ('/' :: '*' :: (inner ++ '*' :: '/' :: s)) := ⟨p, h, rfl⟩
    have hround := commentLoop_mark hat spans
    rw [innerLength?_append hinner] at hround
    dsimp only at hround
    rw [List.take_left] at hround
    have hnext := ih (p := p ++ '/' :: '*' :: (inner ++ ['*', '/'])) (by rw [← h]; simp) (spans ++ [span (p, inner)])
    rw [size_comment, List.append_assoc] at hnext
    rw [Loop.run_next hat.lt hround, commentsBehind_comment hinner]
    exact hnext
  | @unclosed s hs =>
    have hat : At t (size p) ('/' :: '*' :: s) := ⟨p, h, rfl⟩
    have hround := commentLoop_mark hat spans
    rw [hs] at hround
    rw [Loop.run_done hat.lt hround, commentsBehind_unclosed hs, List.map_nil, List.append_nil]

theorem commentSpans_eq (t : List Char) : commentSpans t = pure ((comments t).map span) :=
  commentLoop_run (p := []) (commented t) rfl []

theorem inside_eq {inner : List Char} (h : At t i ('/' :: '*' :: (inner ++ '*' :: '/' :: s))) :
    inside t i (i + 2 + size inner + 2) = pure inner := by
  rw [inside, minus_add, pure_bind]
  exact ((h.ascii (by decide)).ascii (by decide)).slice

/-- Between two comments the text is kept as it is, and each comment settles what is kept up to its end. -/
theorem replaceSpans_keeps {f : List Char → List Char} (hs : Commented s) (hp : p ++ s = t)
    (h : Keeps t k (size p) s out) : ∃ k', ((commentsBehind p s).map span).foldlM (replaceSpan f t) k = pure k' ∧
      Keeps t k' (size t) [] (out ++ Template.replaceComments f s) := by
  induction hs generalizing p k out with
  | nil =>
    have hend : size t = size p := h.at.size_eq
    have hnil : out ++ Template.replaceComments f [] = out := List.append_nil out
    rw [hend, hnil]
    exact ⟨k, rfl, h⟩
  | @char c s hquote hopen _ ih =>
    rw [commentsBehind_other hquote hopen, replaceComments_other f hquote hopen, List.append_cons out]
    exact ih (p := p ++ [c]) (by rw [← hp, List.append_assoc]; rfl) (by simpa using h.cons)
  | @literal b s hb _ ih =>
    rw [commentsBehind_quote p hb, replaceComments_quote f hb, ← List.cons_append, ← List.append_assoc]
    refine ih (p := p ++ '"' :: b) (by rw [← hp, List.append_assoc]; rfl) ?_
    rw [size_append]
    exact (show Keeps t k (size p) (('"' :: b) ++ s) out from h).pass
  | @comment inner s hinner _ ih =>
    have hsize : size (p ++ '/' :: '*' :: (inner ++ ['*', '/'])) = size p + 2 + size inner + 2 := size_comment p inner
    have hrest : p ++ '/' :: '*' :: (inner ++ ['*', '/']) ++ s = t := by rw [← hp]; simp
    have hstep : replaceSpan f t k (span (p, inner)) = pure ⟨out ++ f inner, size p + 2 + size inner + 2⟩ := by
      rw [replaceSpan, span, h.upTo, pure_bind, inside_eq h.at, pure_bind]
    rw [commentsBehind_comment hinner, List.map_cons, List.foldlM_cons, hstep, pure_bind,
      replaceComments_comment_append f hinner, ← List.append_assoc]
    refine ih hrest ?_
    rw [hsize]
    exact Keeps.settle ⟨_, hrest, hsize⟩ (Nat.succ_pos _) _
  | @unclosed s hs =>
    rw [commentsBehind_unclosed hs, replaceComments_unclosed f hs, h.at.size_eq]
    exact ⟨k, rfl, (show Keeps t k (size p) (('/' :: '*' :: s) ++ []) out by rwa [List.append_nil]).pass⟩

theorem replaceComments_eq (f : List Char → List Char) (t : List Char) :
    replaceComments f t = pure (Template.replaceComments f t) := by
  obtain ⟨k, hfold, hkeeps⟩ := replaceSpans_keeps (f := f) (commented t) (List.nil_append t) (Keeps.start t)
  rw [← comments_eq] at hfold
  rw [replaceComments, commentSpans_eq, pure_bind]
  split
  · next hnone =>
    rw [hnone] at hfold
    cases Scan.pure_inj.1 hfold
    exact congrArg pure (hkeeps.eq_text rfl).symm
  · rw [hfold, pure_bind, hkeeps.upTo]
    rfl

/-- A comment that is listed stands in the text behind what is said to be before it. -/
theorem exists_of_mem_comments {before inner : List Char} (hs : Commented s)
    (h : (before, inner) ∈ commentsBehind p s) : ∃ r, before ++ '/' :: '*' :: (inner ++ '*' :: '/' :: r) = p ++ s := by
  induction hs generalizing p with
  | nil => cases h
  | @char c s hquote hopen _ ih =>
    rw [commentsBehind_other hquote hopen] at h
    simpa using ih h
  | @literal b s hb _ ih =>
    rw [commentsBehind_quote p hb] at h
    simpa using ih h
  | @comment inner' s hinner _ ih =>
    rw [commentsBehind_comment hinner, List.mem_cons] at h
    obtain h | h := h
    · cases h
      exact ⟨s, rfl⟩
    · simpa using ih h
  | unclosed hs =>
    rw [commentsBehind_unclosed hs] at h
    cases h

theorem fieldAnnotations_eq (t : List Char) : fieldAnnotations t = pure (Template.fieldAnnotations t) := by
  rw [fieldAnnotations, commentSpans_eq, pure_bind]
  refine Scan.mapM_eq_pure fun ⟨before, inner⟩ hx => ?_
  obtain ⟨r, hr⟩ := exists_of_mem_comments (p := []) (commented t) hx
  have hstart : At t 0 (before ++ '/' :: '*' :: (inner ++ '*' :: '/' :: r)) := by rw [hr]; exact At.start t
  have hbefore := hstart.slice
  have hinside := inside_eq hstart.append
  rw [Nat.zero_add] at hbefore hinside
  rw [annotationAt, span, hbefore, pure_bind, hinside, pure_bind]

end MockRedirect.Template.Bytewise
