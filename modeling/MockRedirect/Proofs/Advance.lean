import MockRedirect.Proofs.CommentSpan
/-! Scanning is safe on every text. Each round of each loop leads to a later offset, so the loops end; all slices that
are taken start and end between characters, so nothing panics; and what comes out is what the scanners on characters
give. -/
namespace MockRedirect.Template.Bytewise
open Text

variable {σ : Type} {t : List Char} {i j n : Nat}

/-! ### Ends of literals and values -/

/-- The end that a loop finds is not before the offset it starts at, and within the text. -/
theorem end_bounds {l : Loop σ Nat} {st : σ} (hadv : l.Advances)
    (hdone : ∀ i st n, l.round i st = pure (.done n) → n = i + 1) (hlast : ∀ i st, l.last i st = size l.text)
    (h : l.run i st = pure n) : min i (size l.text) ≤ n ∧ n ≤ size l.text := by
  refine hadv.of_run (Q := fun i n => min i (size l.text) ≤ n ∧ n ≤ size l.text) ?_ ?_ ?_ h
  · intro i st j st' n hi hround hj
    have hlt := (hadv i st j st' hi hround).1
    omega
  · intro i st n hi hround
    rw [hdone i st n hround]
    omega
  · intro i st hi
    rw [hlast]
    omega

theorem literal_advances (t : List Char) : (literal t).Advances := by
  intro i _ j _ hi h
  dsimp only [literal] at hi h ⊢
  obtain ⟨b, -, h⟩ := Scan.bind_eq_pure.1 h
  split at h
  · cases Scan.pure_inj.1 h
    omega
  · split at h <;> cases Scan.pure_inj.1 h
    omega

theorem literal_done {st : Unit} (h : (literal t).round i st = pure (.done n)) : n = i + 1 := by
  dsimp only [literal] at h
  obtain ⟨b, -, h⟩ := Scan.bind_eq_pure.1 h
  split at h
  · cases Scan.pure_inj.1 h
  · split at h <;> cases Scan.pure_inj.1 h
    rfl

theorem literalEnd_bounds (hi : i < size t) (h : literalEnd t i = pure n) : i < n ∧ n ≤ size t := by
  have hbounds : min (i + 1) (size t) ≤ n ∧ n ≤ size t :=
    end_bounds (literal_advances t) (fun _ _ _ => literal_done) (fun _ _ => rfl) h
  omega

theorem blanks_next {st st' : Unit} (h : (blanks t).round i st = pure (.next j st')) : j = i + 1 := by
  dsimp only [blanks] at h
  obtain ⟨b, -, h⟩ := Scan.bind_eq_pure.1 h
  split at h <;> cases Scan.pure_inj.1 h
  rfl

theorem blanks_done {st : Unit} (h : (blanks t).round i st = pure (.done n)) : n = i := by
  dsimp only [blanks] at h
  obtain ⟨b, -, h⟩ := Scan.bind_eq_pure.1 h
  split at h <;> cases Scan.pure_inj.1 h
  rfl

theorem blanks_advances (t : List Char) : (blanks t).Advances := by
  intro i st j st' hi h
  rw [blanks_next h]
  dsimp only [blanks] at hi ⊢
  omega

theorem blanksEnd_bounds (hi : i ≤ size t) (h : blanksEnd t i = pure n) : i ≤ n ∧ n ≤ size t := by
  have hbounds : i ≤ n ∧ (i ≤ size t → n ≤ size t) := by
    refine (blanks_advances t).of_run (Q := fun i n => i ≤ n ∧ (i ≤ size t → n ≤ size t)) ?_ ?_ ?_ h
    · intro i st j st' n hi hround hj
      rw [blanks_next hround] at hj
      dsimp only [blanks] at hi
      omega
    · intro i st n hi hround
      rw [blanks_done hround]
      exact ⟨Nat.le_refl _, id⟩
    · intro i st hi
      exact ⟨Nat.le_refl _, id⟩
  exact ⟨hbounds.1, hbounds.2 hi⟩

theorem container_advances (t : List Char) : (container t).Advances := by
  intro i depth j depth' hi h
  dsimp only [container] at hi h ⊢
  obtain ⟨b, -, h⟩ := Scan.bind_eq_pure.1 h
  split at h
  · obtain ⟨stop, hend, h⟩ := Scan.bind_eq_pure.1 h
    cases Scan.pure_inj.1 h
    have hbounds := literalEnd_bounds hi hend
    omega
  · split at h
    · cases Scan.pure_inj.1 h
      omega
    · split at h
      · split at h <;> cases Scan.pure_inj.1 h
        omega
      · cases Scan.pure_inj.1 h
        omega

theorem container_done {depth : Nat} (h : (container t).round i depth = pure (.done n)) : n = i + 1 := by
  dsimp only [container] at h
  obtain ⟨b, -, h⟩ := Scan.bind_eq_pure.1 h
  split at h
  · obtain ⟨stop, -, h⟩ := Scan.bind_eq_pure.1 h
    cases Scan.pure_inj.1 h
  · split at h
    · cases Scan.pure_inj.1 h
    · split at h
      · split at h <;> cases Scan.pure_inj.1 h
        rfl
      · cases Scan.pure_inj.1 h

theorem valueEnd_bounds (hi : i ≤ size t) (h : valueEnd t i = pure n) : i ≤ n ∧ n ≤ size t := by
  unfold valueEnd at h
  split at h
  · next hbyte =>
    have hbounds := literalEnd_bounds (lt_of_byte? hbyte) h
    omega
  · split at h
    · have hbounds := end_bounds (container_advances t) (fun _ _ _ => container_done) (fun _ _ => rfl) h
      dsimp only [container] at hbounds
      omega
    · split at h
      · next m hfound =>
        have hlt := (List.findIdx?_eq_some_iff_getElem.1 hfound).1
        rw [List.length_drop] at hlt
        cases Scan.pure_inj.1 h
        unfold size
        omega
      · cases Scan.pure_inj.1 h
        exact ⟨hi, Nat.le_refl _⟩

theorem fieldEnd_bounds (hi : i < size t) (h : fieldEnd t i = pure n) : i < n ∧ n ≤ size t := by
  obtain ⟨value, hvalue, h⟩ := Scan.bind_eq_pure.1 h
  obtain ⟨stop, hstop, h⟩ := Scan.bind_eq_pure.1 h
  have hvalue := blanksEnd_bounds hi hvalue
  have hstop := valueEnd_bounds hvalue.2 hstop
  have hend := blanksEnd_bounds hstop.2 h
  omega

/-! ### Comments, fields and commas -/

theorem commentLoop_advances (t : List Char) : (commentLoop t).Advances := by
  intro i spans j spans' hi h
  dsimp only [commentLoop] at hi h ⊢
  obtain ⟨b, -, h⟩ := Scan.bind_eq_pure.1 h
  split at h
  · obtain ⟨stop, hend, h⟩ := Scan.bind_eq_pure.1 h
    cases Scan.pure_inj.1 h
    have hbounds := literalEnd_bounds hi hend
    omega
  · split at h
    · obtain ⟨rest, hslice, h⟩ := Scan.bind_eq_pure.1 h
      have hsize := (at_of_slice_end hslice).size_eq
      split at h
      · cases Scan.pure_inj.1 h
      · next m hlength =>
        obtain ⟨inner, r, rfl, -, rfl⟩ := exists_of_innerLength? hlength
        rw [List.take_left] at h
        rw [size_append, size_ascii (by decide), size_ascii (by decide)] at hsize
        cases Scan.pure_inj.1 h
        omega
    · cases Scan.pure_inj.1 h
      omega

theorem fieldLoop_advances (drop : List Char → Bool) (t : List Char) : (fieldLoop drop t).Advances := by
  intro i k j k' hi h
  dsimp only [fieldLoop] at hi h ⊢
  obtain ⟨b, -, h⟩ := Scan.bind_eq_pure.1 h
  split at h
  · cases Scan.pure_inj.1 h
    omega
  · obtain ⟨keyEnd, hkey, h⟩ := Scan.bind_eq_pure.1 h
    obtain ⟨colon, hcolon, h⟩ := Scan.bind_eq_pure.1 h
    have hkey := literalEnd_bounds hi hkey
    have hcolon := blanksEnd_bounds hkey.2 hcolon
    split at h
    · next hbyte =>
      obtain ⟨stop, -, h⟩ := Scan.bind_eq_pure.1 h
      obtain ⟨key, -, h⟩ := Scan.bind_eq_pure.1 h
      split at h
      · obtain ⟨stop, hstop, h⟩ := Scan.bind_eq_pure.1 h
        obtain ⟨out, -, h⟩ := Scan.bind_eq_pure.1 h
        have hstop := fieldEnd_bounds (lt_of_byte? hbyte) hstop
        split at h
        · cases Scan.pure_inj.1 h
          omega
        · obtain ⟨out, -, h⟩ := Scan.bind_eq_pure.1 h
          cases Scan.pure_inj.1 h
          omega
      · cases Scan.pure_inj.1 h
        omega
    · cases Scan.pure_inj.1 h
      omega

theorem commaLoop_advances (t : List Char) : (commaLoop t).Advances := by
  intro i k j k' hi h
  dsimp only [commaLoop] at hi h ⊢
  obtain ⟨b, -, h⟩ := Scan.bind_eq_pure.1 h
  split at h
  · obtain ⟨stop, hend, h⟩ := Scan.bind_eq_pure.1 h
    cases Scan.pure_inj.1 h
    have hbounds := literalEnd_bounds hi hend
    omega
  · split at h
    · obtain ⟨next, -, h⟩ := Scan.bind_eq_pure.1 h
      split at h
      · obtain ⟨out, -, h⟩ := Scan.bind_eq_pure.1 h
        cases Scan.pure_inj.1 h
        omega
      · cases Scan.pure_inj.1 h
        omega
    · cases Scan.pure_inj.1 h
      omega

/-! ### Templates and answers -/

/-- The span is sliced from the first opening bracket to behind the last closing one, if these stand in this order by
their offsets, which is their order as characters. -/
theorem jsonSpan_eq (t : List Char) : jsonSpan t = pure (Template.jsonSpan t) := by
  unfold jsonSpan Template.jsonSpan offset?
  dsimp only
  by_cases hopen : t.any isOpening = true
  · rw [if_pos hopen, hopen, Bool.true_and]
    obtain ⟨hnone, hdrop⟩ | ⟨q, c, r, htext, hc, hsome, hdrop⟩ := lastOffset?_cases isClosing t
    · rw [hnone, hdrop]
      rfl
    · have hp : t.takeWhile (!isOpening ·) <+: t := List.takeWhile_prefix _
      have hq : q <+: t := ⟨c :: r, htext.symm⟩
      rw [hsome, hdrop]
      dsimp only
      rw [List.length_cons, List.length_reverse]
      generalize t.takeWhile (!isOpening ·) = p at hp
      have hcond : decide (p.length + 1 < q.length + 1) = true ↔ size p < size q := by
        rw [decide_eq_true_iff, size_lt_size_iff hp hq]
        omega
      split
      · next hlt =>
        obtain ⟨z, rfl⟩ := prefix_of_size_le hp hq (Nat.le_of_lt hlt)
        have hlength : (p ++ z ++ [c]).length = (p ++ z).length + 1 := List.length_append
        have htake : (t.take ((p ++ z).length + 1)).drop p.length = z ++ [c] := by
          rw [htext, List.append_cons, ← hlength, List.take_left, List.append_assoc, List.drop_left]
        rw [if_pos (hcond.2 hlt), htake]
        refine slice_eq_pure_iff.2 ⟨p, r, by rw [htext]; simp, rfl, ?_⟩
        rw [← List.append_assoc, size_append, size_ascii (toNat_lt_of_isClosing hc)]
        rfl
      · next hlt => rw [if_neg (mt hcond.1 hlt)]
  · rw [if_neg hopen, Bool.eq_false_iff.2 hopen]
    rfl

theorem sampleText_eq (t : List Char) : sampleText t = pure (Template.sampleText t) := by
  rw [sampleText, stripComments, replaceComments_eq, pure_bind, stripFields_eq, pure_bind]
  rfl

theorem parse_eq (t : List Char) : parse t = pure (Template.parse t) := by
  rw [parse, Template.parse]
  split
  · rfl
  · rw [sampleText_eq, pure_bind]
    cases Json.parse (Template.sampleText t) <;> rfl

theorem answerText_eq (t : List Char) : answerText t = pure (Template.answerText t) := by
  rw [answerText, jsonSpan_eq, pure_bind, stripComments, replaceComments_eq, pure_bind, stripFields_eq, pure_bind,
    dropTrailingCommas_eq, pure_bind]
  rfl

theorem sanitize_eq (t : List Char) : sanitize t = pure (Template.sanitize t) := by
  rw [sanitize, Template.sanitize, answerText_eq, pure_bind]
  cases Json.parse (Template.answerText t) <;> rfl

/-! ### Safety -/

/-- No text makes a scanner panic or run on. A slice has a result only where it may be taken, a loop that advances only
if its rounds come to an end; each of the loops advances, and all the work has its result. -/
theorem scanners_safe (t : List Char) (drop : List Char → Bool) :
    ((∀ s i j, (∃ u, slice s i j = pure u) ↔ i ≤ j ∧ j ≤ size s ∧ IsBoundary s i ∧ IsBoundary s j) ∧
      ∀ (σ α : Type) [Nonempty α] (l : Loop σ α), l.Advances → ∀ i st result,
        l.run i st = pure result ↔ l.Ends i st result) ∧
    ((literal t).Advances ∧ (blanks t).Advances ∧ (container t).Advances ∧ (commentLoop t).Advances ∧
      (fieldLoop drop t).Advances ∧ (commaLoop t).Advances) ∧
    (stripComments t = pure (Template.stripComments t) ∧ hints t = pure (Template.hints t) ∧
      fieldAnnotations t = pure (Template.fieldAnnotations t) ∧
      stripFields drop t = pure (Template.stripFields drop t) ∧
      dropTrailingCommas t = pure (Template.dropTrailingCommas t) ∧ jsonSpan t = pure (Template.jsonSpan t)) ∧
    parse t = pure (Template.parse t) ∧ sampleText t = pure (Template.sampleText t) ∧
      sanitize t = pure (Template.sanitize t) :=
  ⟨⟨fun _ _ _ => exists_slice_iff, fun _ _ _ _ hadv _ _ _ => hadv.run_eq_pure_iff⟩,
    ⟨literal_advances t, blanks_advances t, container_advances t, commentLoop_advances t, fieldLoop_advances drop t,
      commaLoop_advances t⟩,
    ⟨replaceComments_eq _ t, replaceComments_eq _ t, fieldAnnotations_eq t, stripFields_eq drop t,
      dropTrailingCommas_eq t, jsonSpan_eq t⟩,
    parse_eq t, sampleText_eq t, sanitize_eq t⟩

end MockRedirect.Template.Bytewise
