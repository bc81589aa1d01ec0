import MockRedirect.Proofs.Annotated
import MockRedirect.Proofs.Comma
/-! Answers of models: a document with comments, noise and trailing commas, and with prose around it. -/
namespace MockRedirect.Template
open Document Text

/-! ### Fences -/

variable {w p q s t rest before after : List Char} {c : Char}

theorem startsWith_iff : startsWith w s = true ↔ w <+: s := by
  rw [startsWith, Option.isSome_iff_exists]
  exact exists_congr fun r => after?_eq_some.trans eq_comm

/-- A word is not to be found across a character that it does not have. -/
theorem prefix_append_cons (hc : c ∉ w) (p rest : List Char) : w <+: p ++ c :: rest ↔ w <+: p := by
  refine ⟨fun h => ?_, fun h => h.trans (List.prefix_append p _)⟩
  obtain hlt | hle := Nat.lt_or_ge p.length w.length
  · have hlength : (p ++ [c]).length ≤ w.length := by
      rw [List.length_append]
      exact hlt
    have hcw : p ++ [c] <+: w := List.prefix_of_prefix_length_le (by simp) h hlength
    exact absurd (hcw.subset (by simp)) hc
  · exact List.prefix_of_prefix_length_le h (List.prefix_append p _) hle

def fence : List Char := List.replicate 3 '\x60'

/-- A character of which neither fences nor language marks are made. -/
def Apart (c : Char) : Prop := c ∉ fence ∧ c ∉ "json".toList

theorem startsWith_append_cons (hc : c ∉ w) (p rest : List Char) :
    startsWith w (p ++ c :: rest) = startsWith w p := by
  rw [Bool.eq_iff_iff, startsWith_iff, startsWith_iff, prefix_append_cons hc]

theorem dropFences_go (c : Char) (s : List Char) : dropFences.go (c :: s) 0 =
    if startsWith fence (c :: s) then
      dropFences.go s (if startsWith "json".toList (s.drop 2) then 6 else 2)
    else c :: dropFences.go s 0 := rfl

/-- No fence reaches over such a character. -/
theorem dropFences_append (hc : Apart c) (p rest : List Char) :
    dropFences (p ++ c :: rest) = dropFences p ++ dropFences (c :: rest) := by
  have hgo : ∀ p n, n ≤ p.length → dropFences.go (p ++ c :: rest) n =
      dropFences.go p n ++ dropFences.go (c :: rest) 0 := by
    intro p
    induction p with
    | nil =>
      intro n hn
      rw [Nat.le_zero.1 hn]
      rfl
    | cons d p ih =>
      intro n hn
      cases n with
      | succ n => exact ih n (Nat.le_of_succ_le_succ hn)
      | zero =>
        rw [List.cons_append, dropFences_go, dropFences_go, ← List.cons_append, startsWith_append_cons hc.1]
        split
        · next hfence =>
          have hlength := (startsWith_iff.1 hfence).length_le
          have htwo : 2 ≤ p.length := Nat.le_of_succ_le_succ hlength
          rw [List.drop_append_of_le_length htwo, startsWith_append_cons hc.2]
          refine ih _ ?_
          split
          · next hjson =>
            have hlength := (startsWith_iff.1 hjson).length_le
            rw [List.length_drop] at hlength
            have hfour : "json".toList.length = 4 := by decide
            omega
          · exact htwo
        · rw [ih 0 (Nat.zero_le _)]
          rfl
  exact hgo p 0 (Nat.zero_le _)

/-- Without fences a text stays as it is. -/
theorem dropFences_of_not_infix (hc : Apart c) (h : ¬fence <:+: q) :
    Passes dropFences (q ++ [c]) (q ++ [c]) := by
  intro rest
  induction q with
  | nil =>
    have hstart : ¬startsWith fence (c :: rest) = true := by
      rw [startsWith_iff]
      rintro ⟨r, hr⟩
      exact hc.1 ((List.cons.inj hr).1 ▸ List.mem_cons_self)
    exact (dropFences_go c rest).trans (if_neg hstart)
  | cons d q ih =>
    have hq : ¬fence <:+: q := fun hin => h (hin.trans (List.suffix_cons d q).isInfix)
    have hstart : ¬startsWith fence (d :: (q ++ c :: rest)) = true := by
      rw [← List.cons_append, startsWith_append_cons hc.1, startsWith_iff]
      exact fun hfront => h hfront.isInfix
    have hgo := (dropFences_go d (q ++ c :: rest)).trans (if_neg hstart)
    have ih := ih hq
    rw [List.append_assoc, List.singleton_append] at ih
    rw [List.cons_append, List.cons_append, List.append_assoc, List.singleton_append]
    exact hgo.trans (congrArg (d :: ·) ih)

/-! ### Prose -/

/-- A text without brackets. -/
def IsProse (s : List Char) : Prop := ∀ c ∈ s, isOpening c = false ∧ isClosing c = false

theorem isProse_dropFences (h : IsProse s) : IsProse (dropFences s) := by
  have hgo : ∀ s n, ∀ c ∈ dropFences.go s n, c ∈ s := by
    intro s
    induction s with
    | nil =>
      intro n c hc
      contradiction
    | cons d s ih =>
      intro n c hc
      cases n with
      | succ n => exact List.mem_cons_of_mem _ (ih n c hc)
      | zero =>
        rw [dropFences_go] at hc
        split at hc
        · exact List.mem_cons_of_mem _ (ih _ c hc)
        · exact (List.mem_cons.1 hc).elim (fun hd => hd ▸ List.mem_cons_self)
            fun hc => List.mem_cons_of_mem _ (ih _ c hc)
  exact fun c hc => h c (hgo s 0 c hc)

theorem isProse_trimStart (h : IsProse s) : IsProse (trimStart s) :=
  fun c hc => h c ((List.dropWhile_sublist _).subset hc)

theorem isProse_trimEnd (h : IsProse s) : IsProse (trimEnd s) := by
  intro c hc
  have hmem := (List.dropWhile_sublist _).subset (List.mem_reverse.1 hc)
  exact h c (List.mem_reverse.1 hmem)

/-- A text from one bracket to another. -/
structure Bracketed (s : List Char) : Prop where
  opens : ∃ c t, s = c :: t ∧ isOpening c = true
  closes : ∃ t c, s = t ++ [c] ∧ isClosing c = true

theorem trimStart_prose (hc : isBlank c = false) (s t : List Char) :
    trimStart (s ++ c :: t) = trimStart s ++ c :: t := by
  induction s with
  | nil => exact List.dropWhile_cons_of_neg (by simp [hc])
  | cons d s ih =>
    rw [trimStart] at ih
    rw [trimStart, trimStart, List.cons_append, List.dropWhile_cons, List.dropWhile_cons, ih]
    split
    · rfl
    · rfl

/-- Trimming takes blanks from the prose only. -/
theorem trim_prose {d : Char} (hc : isBlank c = false) (hd : isBlank d = false) (h : c :: s = t ++ [d])
    (before after : List Char) :
    trim (before ++ (c :: s ++ after)) = trimStart before ++ (c :: s ++ trimEnd after) := by
  have hstart : trimStart (before ++ (c :: s ++ after)) = trimStart before ++ (t ++ d :: after) := by
    rw [List.cons_append, trimStart_prose hc, ← List.cons_append, h, List.append_assoc,
      List.singleton_append]
  have hreverse : (trimStart before ++ (t ++ d :: after)).reverse =
      after.reverse ++ d :: (trimStart before ++ t).reverse := by
    simp
  rw [trim, hstart, trimEnd, hreverse, ← trimStart, trimStart_prose hd, h, trimEnd, ← trimStart]
  simp

theorem takeWhile_length_append {f : Char → Bool} (h : ∀ d ∈ s, f d = true) (hc : f c = false)
    (t : List Char) : ((s ++ c :: t).takeWhile f).length = s.length := by
  rw [List.takeWhile_append_of_pos h, List.takeWhile_cons_of_neg (by simp [hc]), List.append_nil]

theorem jsonSpan_prose (hs : Bracketed s) (hbefore : IsProse before) (hafter : IsProse after) :
    jsonSpan (before ++ (s ++ after)) = s := by
  obtain ⟨⟨c, t, hopens, hc⟩, ⟨u, d, hcloses, hd⟩⟩ := hs
  have hlength : 2 ≤ s.length := by
    cases t with
    | cons e t => simp [hopens]
    | nil =>
      -- no bracket opens and closes
      have hcd : [] ++ [c] = u ++ [d] := hopens ▸ hcloses
      obtain rfl : c = d := (List.cons.inj (List.append_inj' hcd rfl).2).1
      simp only [isOpening, isClosing, Bool.or_eq_true, beq_iff_eq] at hc hd
      obtain rfl | rfl := hc <;> simp at hd
  have hstart : ((before ++ (s ++ after)).takeWhile (!isOpening ·)).length = before.length := by
    rw [hopens, List.cons_append]
    exact takeWhile_length_append (fun c hc => by simp [(hbefore c hc).1]) (by simp [hc]) _
  have hstop : ((before ++ (s ++ after)).reverse.dropWhile (!isClosing ·)).length =
      (before ++ s).length := by
    have hreverse : (before ++ (s ++ after)).reverse = after.reverse ++ d :: (before ++ u).reverse := by
      simp [hcloses]
    have hskip : ∀ e ∈ after.reverse, (!isClosing e) = true := fun e he => by
      simp [(hafter e (List.mem_reverse.1 he)).2]
    rw [hreverse, List.dropWhile_append_of_pos hskip, List.dropWhile_cons_of_neg (by simp [hd]), hcloses]
    simp
    omega
  have hany : (before ++ (s ++ after)).any isOpening = true := by
    rw [List.any_eq_true]
    exact ⟨c, by simp [hopens], hc⟩
  have hspan : before.length + 1 < (before ++ s).length := by
    rw [List.length_append]
    omega
  rw [jsonSpan, hstart, hstop, hany, Bool.true_and, if_pos (by simpa using hspan), ← List.append_assoc,
    List.take_left, List.drop_left]

/-! ### Answers -/

variable {st : Style} {d : Document} {v : Json}

theorem bracketed_of_spells (h : Spells st s (.value d)) (hd : d.isContainer = true) : Bracketed s := by
  have hends := ends_of_spells h
  rw [isScalarPart, hd] at hends
  obtain ⟨r, c, hlast, -, hc | hc⟩ := hends
  · refine ⟨?_, r, c, hlast, hc⟩
    cases h with
    | word | text => contradiction
    | emptyList | list => exact ⟨'[', _, rfl, rfl⟩
    | emptyRecord | record => exact ⟨'\x7b', _, rfl, rfl⟩
  · contradiction

theorem apart_of_bracket {c : Char} (h : isOpening c = true ∨ isClosing c = true) :
    Apart c ∧ isBlank c = false := by
  simp only [isOpening, isClosing, Bool.or_eq_true, beq_iff_eq] at h
  obtain (rfl | rfl) | rfl | rfl := h <;> exact ⟨⟨by decide, by decide⟩, rfl⟩

/-- Fences and prose go, and what stands between the outer brackets stays as it is. -/
theorem span_of_answer (hs : Bracketed s) (hfence : ¬fence <:+: s) (hbefore : IsProse before)
    (hafter : IsProse after) : jsonSpan (trim (dropFences (before ++ (s ++ after)))) = s := by
  have hspan := hs
  obtain ⟨⟨c, t, hopens, hc⟩, ⟨u, d, hcloses, hd⟩⟩ := hs
  obtain ⟨hc, hcblank⟩ := apart_of_bracket (.inl hc)
  obtain ⟨hd, hdblank⟩ := apart_of_bracket (.inr hd)
  have hfences : dropFences (before ++ (s ++ after)) = dropFences before ++ (s ++ dropFences after) := by
    have hu : ¬fence <:+: u := fun h => hfence (hcloses ▸ h.trans (List.prefix_append u [d]).isInfix)
    have hpass := dropFences_of_not_infix hd hu after
    rw [← hcloses] at hpass
    rw [← hpass, hopens]
    exact dropFences_append hc before _
  have htrim := trim_prose hcblank hdblank (hopens.symm.trans hcloses) (dropFences before)
    (dropFences after)
  rw [← hopens] at htrim
  rw [hfences, htrim]
  exact jsonSpan_prose hspan (isProse_trimStart (isProse_dropFences hbefore))
    (isProse_trimEnd (isProse_dropFences hafter))

theorem isNoise_of_stringValue? {k : List Char} {key : String} (hk : isNoise k = true)
    (h : stringValue? k = some key) : isNoise key.toList = true := by
  rw [isNoise, Bool.or_eq_true] at hk ⊢
  obtain hk | hk := hk
  · exact .inl (isMetaKey_of_stringValue? hk h)
  · rw [beq_iff_eq] at hk
    subst hk
    cases h
    exact .inr rfl

/-- What is left of a document once comments, noise and trailing commas have been taken out. -/
theorem trim_stripped_whole (hgap : ∀ g, st.gap g → IsGap g) (hextra : ∀ k, st.extra k → isNoise k = true)
    (hbare : ∀ k, st.bare k → isNoise k = true) (h : st.Whole s d) :
    Style.strict.Whole (trim (dropTrailingCommas (stripFields isNoise (stripComments s)))) (d.without isNoise) := by
  have hfields : st.plain.blank.Whole (stripFields isNoise (stripComments s)) (d.without isNoise) :=
    stripFields_whole hextra hbare (stripComments_whole hgap h)
  have hcommas : Style.strict.blank.Whole _ _ := (dropTrailingCommas_whole hfields).1
  exact trim_whole hcommas

theorem answerText_sloppy (h : Spells sloppy s (.value d)) (hd : d.isContainer = true)
    (hfence : ¬fence <:+: s) (hbefore : IsProse before) (hafter : IsProse after) :
    Style.strict.Whole (answerText (before ++ (s ++ after))) (d.without isNoise) := by
  have hwhole : sloppy.Whole s d := ⟨[], s, [], by simp, .nil, .nil, h⟩
  have hnoise (k : List Char) (hk : sloppy.bare k) : isNoise k = true := by
    rw [isNoise, hk]
    rfl
  rw [answerText, span_of_answer (bracketed_of_spells h hd) hfence hbefore hafter]
  exact trim_stripped_whole (fun _ => id) (fun _ => id) hnoise hwhole

/-- An answer in which noise, comments and trailing commas are put into a document, with fences and prose
around it, gives the tree of this document without noise, with the status zeroed. -/
theorem sanitize_sloppy (h : Json.parse s = .ok v) :
    (∃ d, Style.strict.Whole s d ∧ d.value?.isSome) ∧
      ∀ d core before after, Style.strict.Whole s d → d.value?.isSome → d.isContainer = true →
        Spells sloppy core (.value d) → ¬fence <:+: core → IsProse before → IsProse after →
          sanitize (before ++ (core ++ after)) = .ok (v.prune fun k => isNoise k.toList).zeroStatus := by
  constructor
  · obtain ⟨d, u, hs, hu, -, -⟩ := Json.parse_eq_ok.1 h
    exact ⟨d, hs, by simp [hu]⟩
  · intro d core before after hs hd hcontainer hcore hfence hbefore hafter
    obtain ⟨w, hw, hprune⟩ := parse_without (fun _ _ => isNoise_of_stringValue?) hs hd h
      (answerText_sloppy hcore hcontainer hfence hbefore hafter)
    rw [sanitize, hw]
    exact congrArg (fun w => Except.ok w.zeroStatus) hprune

/-- Prose with fences around a document with a single blank for a key, a comment with a bracket in it and
trailing commas. -/
theorem sanitize_sloppy_fenced :
    Json.parse "\x7b\"a\":[1]\x7d".toList = .ok (.obj [("a", .arr [.int 1])]) ∧
      sanitize ("Sure:\n\x60\x60\x60json\n".toList ++ ("\x7b\" \":2,\"a\":[1,/*]*/],\x7d".toList ++
        "\n\x60\x60\x60 Done.".toList)) = .ok (.obj [("a", .arr [.int 1])]) := by
  have hgap : sloppy.gap [] := IsGap.nil
  have hspace := Json.isSpace_nil
  have hcomment : sloppy.gap ('/' :: '*' :: ([']'] ++ '*' :: '/' :: [])) := IsGap.comment (by decide) .nil
  have ha : IsBody ['a'] := .char (by decide) (by decide) .nil
  have hblank : IsBody [' '] := .char (by decide) (by decide) .nil
  have hone : IsWord ['1'] := ⟨by decide, forall_mem_of_all (by decide)⟩
  have htwo : IsWord ['2'] := ⟨by decide, forall_mem_of_all (by decide)⟩
  have hplain : Style.strict.Whole "\x7b\"a\":[1]\x7d".toList (.record [(['a'], .list [.word ['1']])]) :=
    ⟨[], _, [], rfl, hspace, hspace, .record hspace (.member ha hspace hspace
      (.list hspace (.item (.word hone) hspace .lastItem)) hspace .lastMember)⟩
  have hparse : Json.parse "\x7b\"a\":[1]\x7d".toList = .ok (.obj [("a", .arr [.int 1])]) :=
    (Json.parse_of_whole hplain rfl).2 ⟨by decide, rfl⟩
  have hcore : Spells sloppy "\x7b\" \":2,\"a\":[1,/*]*/],\x7d".toList
      (.value (.record [(['a'], .list [.word ['1']])])) := by
    have h := Spells.record hgap (.extra hblank rfl hgap hgap (.word htwo) hgap (.nextMember hgap
      (.member ha hgap hgap (.list hgap (.item (.word hone) hgap (.trailingItem trivial hcomment))) hgap
        (.trailingMember trivial hgap))))
    exact h
  have hfence : ¬fence <:+: "\x7b\" \":2,\"a\":[1,/*]*/],\x7d".toList := fun h =>
    absurd (h.subset (List.mem_replicate.2 ⟨by decide, rfl⟩)) (by decide : '\x60' ∉ _)
  have hbefore : IsProse "Sure:\n\x60\x60\x60json\n".toList := forall_mem_of_all (by decide)
  have hafter : IsProse "\n\x60\x60\x60 Done.".toList := forall_mem_of_all (by decide)
  exact ⟨hparse, (sanitize_sloppy hparse).2 _ _ _ _ hplain rfl rfl hcore hfence hbefore hafter⟩

end MockRedirect.Template
