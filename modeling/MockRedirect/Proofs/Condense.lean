import MockRedirect.Proofs.Comment
import MockRedirect.Proofs.Pieces
/-! Condensed annotations. What is read of an annotation can be written in its condensed form and is read from there
again, so condensing the comments of a template changes neither its annotations nor what stands between them. -/
namespace MockRedirect
open Text Template

namespace Template

/-- No comment ends in this text. -/
def NoEnd (s : List Char) : Prop := ¬['*', '/'] <:+: s

instance (s : List Char) : Decidable (NoEnd s) := inferInstanceAs (Decidable ¬['*', '/'] <:+: s)

theorem NoEnd.of_isInfix {s t : List Char} (h : NoEnd t) (hst : s <:+: t) : NoEnd s := fun hin => h (hin.trans hst)

theorem noEnd_nil : NoEnd [] := by simp [NoEnd]

theorem noEnd_cons {c : Char} {s : List Char} : NoEnd (c :: s) ↔ ¬(c = '*' ∧ s.head? = some '/') ∧ NoEnd s := by
  have hpre : ['*', '/'] <+: c :: s ↔ c = '*' ∧ s.head? = some '/' := by
    rw [List.cons_prefix_cons, eq_comm]
    cases s <;> simp [eq_comm]
  rw [NoEnd, NoEnd, List.infix_cons_iff, hpre, not_or]

/-- A character that does not belong to the end of a comment keeps two texts apart. -/
theorem NoEnd.append_cons {c : Char} (hstar : c ≠ '*') (hslash : c ≠ '/') {s t : List Char} (hs : NoEnd s)
    (ht : NoEnd t) : NoEnd (s ++ c :: t) := by
  induction s with
  | nil => exact noEnd_cons.2 ⟨fun h => hstar h.1, ht⟩
  | cons d s ih =>
    rw [noEnd_cons] at hs
    refine noEnd_cons.2 ⟨?_, ih hs.2⟩
    rintro ⟨rfl, hhead⟩
    cases s with
    | nil => exact hslash (by simpa using hhead)
    | cons e s => exact hs.1 ⟨rfl, hhead⟩

end Template

namespace Annotation

/-! ### Parts -/

theorem Part.of_eq_other {s : List Char} : Part.of s = .other s ↔
    after? "xs:".toList (trim s) = none ∧ after? "note:".toList (trim s) = none := by
  unfold Part.of
  dsimp only
  split
  · next hx => exact ⟨nofun, fun h => nomatch hx.symm.trans h.1⟩
  · next hx =>
    split
    · next hn => exact ⟨nofun, fun h => nomatch hn.symm.trans h.2⟩
    · next hn => exact ⟨fun _ => ⟨hx, hn⟩, fun _ => rfl⟩

/-- What is named in a part stands in it. -/
theorem Part.cases (s : List Char) :
    (∃ t, t <:+: s ∧ Part.of s = .typeTag (trim t)) ∨ (∃ t, t <:+: s ∧ Part.of s = .note (trim t)) ∨
      Part.of s = .other s := by
  have hinfix {mark t : List Char} (h : after? mark (trim s) = some t) : t <:+: s := by
    have happend := after?_eq_some.1 h
    exact (List.suffix_append mark t).isInfix.trans (happend ▸ trim_isInfix s)
  unfold Part.of
  dsimp only
  split
  · next t hx => exact .inl ⟨t, hinfix hx, rfl⟩
  · split
    · next t hn => exact .inr (.inl ⟨t, hinfix hn, rfl⟩)
    · exact .inr (.inr rfl)

/-- Blanks behind a part do not make it name something. -/
theorem Part.of_append_eq_other {s g : List Char} (hg : ∀ c ∈ g, isBlank c = true) :
    Part.of (s ++ g) = .other (s ++ g) ↔ Part.of s = .other s := by
  have htrim : trim (s ++ g) = trim s := trim_append_blanks hg s
  rw [Part.of_eq_other, Part.of_eq_other, htrim]

theorem Part.of_typeTag (s : List Char) : Part.of (' ' :: ("xs:".toList ++ s)) = .typeTag (trim s) := by
  have htrim : trim (' ' :: ("xs:".toList ++ s)) = "xs:".toList ++ trimEnd s :=
    trimEnd_append_left (s := "xs:".toList) (forall_mem_of_all (by decide)) s
  have hx : after? "xs:".toList ("xs:".toList ++ trimEnd s) = some (trimEnd s) := after?_eq_some.2 rfl
  simp only [Part.of, htrim, hx, trim_trimEnd]

theorem Part.of_note (s : List Char) : Part.of (' ' :: ("note:".toList ++ s)) = .note (trim s) := by
  have htrim : trim (' ' :: ("note:".toList ++ s)) = "note:".toList ++ trimEnd s :=
    trimEnd_append_left (s := "note:".toList) (forall_mem_of_all (by decide)) s
  have hx : after? "xs:".toList ("note:".toList ++ trimEnd s) = none := rfl
  have hn : after? "note:".toList ("note:".toList ++ trimEnd s) = some (trimEnd s) := after?_eq_some.2 rfl
  simp only [Part.of, htrim, hx, hn, trim_trimEnd]

/-! ### Reading the parts -/

section
variable {st : State} {part : List Char}

/-- What one part of a comment does. -/
theorem State.add_cases (st : State) (part : List Char) :
    (∃ t, t <:+: part ∧ st.add part = ⟨some (trim t), st.note, false⟩) ∨
      (∃ t, t <:+: part ∧ st.add part = ⟨st.typeTag, some (trim t), true⟩) ∨
      (Part.of part = .other part ∧ st.inNote = true ∧
        st.add part = { st with note := st.note.map (· ++ ',' :: part) }) ∨ st.add part = st := by
  obtain ⟨t, ht, hof⟩ | ⟨t, ht, hof⟩ | hof := Part.cases part
  · exact .inl ⟨t, ht, by rw [State.add, hof]⟩
  · exact .inr (.inl ⟨t, ht, by rw [State.add, hof]⟩)
  · by_cases hin : st.inNote = true
    · exact .inr (.inr (.inl ⟨hof, hin, by rw [State.add, hof]; exact if_pos hin⟩))
    · exact .inr (.inr (.inr (by rw [State.add, hof]; exact if_neg hin)))

/-- A note that is made of a trimmed part and of parts that name nothing. -/
def IsJoined (n : List Char) : Prop :=
  ∃ p ps, split ',' n = p :: ps ∧ trim p = p ∧ ∀ q ∈ ps, Part.of q = .other q

/-- What has been read of a comment can be written in a comment. -/
structure State.Sound (st : State) : Prop where
  typeTag : ∀ t ∈ st.typeTag, trim t = t ∧ ',' ∉ t
  note : ∀ n ∈ st.note, IsJoined n

theorem State.sound_add (h : st.Sound) (hpart : ',' ∉ part) : (st.add part).Sound := by
  have hcomma {t : List Char} (ht : t <:+: part) : ',' ∉ trim t :=
    fun hc => hpart (((trim_isInfix t).trans ht).subset hc)
  obtain ⟨t, ht, hadd⟩ | ⟨t, ht, hadd⟩ | ⟨hof, -, hadd⟩ | hadd := st.add_cases part <;> rw [hadd]
  · refine ⟨?_, h.note⟩
    rintro _ ⟨⟩
    exact ⟨trim_trim t, hcomma ht⟩
  · refine ⟨h.typeTag, ?_⟩
    rintro _ ⟨⟩
    exact ⟨trim t, [], split_of_notMem (hcomma ht), trim_trim t, by simp⟩
  · refine ⟨h.typeTag, fun n hn => ?_⟩
    obtain ⟨m, hm, rfl⟩ := Option.map_eq_some_iff.1 hn
    obtain ⟨p, ps, hsplit, hp, hps⟩ := h.note m hm
    refine ⟨p, ps ++ [part], ?_, hp, ?_⟩
    · rw [split_append, hsplit, split_of_notMem hpart, List.cons_append]
    · simpa [or_imp, forall_and, hof] using hps
  · exact h

/-- No comment ends in what has been read. -/
structure State.Stays (st : State) : Prop where
  typeTag : ∀ t ∈ st.typeTag, NoEnd t
  note : ∀ n ∈ st.note, NoEnd n

theorem State.stays_add (h : st.Stays) (hpart : NoEnd part) : (st.add part).Stays := by
  have hinfix {t : List Char} (ht : t <:+: part) : NoEnd (trim t) := hpart.of_isInfix ((trim_isInfix t).trans ht)
  obtain ⟨t, ht, hadd⟩ | ⟨t, ht, hadd⟩ | ⟨-, -, hadd⟩ | hadd := st.add_cases part <;> rw [hadd]
  · refine ⟨?_, h.note⟩
    rintro _ ⟨⟩
    exact hinfix ht
  · refine ⟨h.typeTag, ?_⟩
    rintro _ ⟨⟩
    exact hinfix ht
  · refine ⟨h.typeTag, fun n hn => ?_⟩
    obtain ⟨m, hm, rfl⟩ := Option.map_eq_some_iff.1 hn
    exact (h.note m hm).append_cons (by decide) (by decide) hpart
  · exact h

/-- What each part keeps is kept by a whole comment. -/
theorem State.foldl_add {P : State → Prop} {ps : List (List Char)}
    (hadd : ∀ st, P st → ∀ p ∈ ps, P (st.add p)) (h : P st) : P (ps.foldl State.add st) := by
  induction ps generalizing st with
  | nil => exact h
  | cons p ps ih =>
    exact ih (fun st hst q hq => hadd st hst q (List.mem_cons_of_mem p hq)) (hadd st h p List.mem_cons_self)

/-- Parts that name nothing go to the note. -/
theorem State.foldl_add_other {ps : List (List Char)} (hps : ∀ p ∈ ps, Part.of p = .other p)
    (tag : Option (List Char)) (n : List Char) :
    ps.foldl State.add ⟨tag, some n, true⟩ = ⟨tag, some (n ++ ps.flatMap (',' :: ·)), true⟩ := by
  induction ps generalizing n with
  | nil => simp
  | cons p ps ih =>
    rw [List.forall_mem_cons] at hps
    have hadd : State.add ⟨tag, some n, true⟩ p = ⟨tag, some (n ++ ',' :: p), true⟩ := by
      rw [State.add, hps.1]
      rfl
    rw [List.foldl_cons, hadd, ih hps.2, List.flatMap_cons, List.append_assoc]

end

/-! ### Annotations -/

theorem filled_eq_some {s : List Char} {t : String} : filled s = some t ↔ s ≠ [] ∧ s = t.toList := by
  rw [filled]
  split
  · next hs => simp [hs]
  · next hs => simp [hs, ← String.toList_inj]

/-- An annotation that is written in a comment as it is. -/
structure IsNormal (a : Annotation) : Prop where
  typeTag : ∀ t ∈ a.typeTag, t.toList ≠ [] ∧ trim t.toList = t.toList ∧ ',' ∉ t.toList
  note : ∀ n ∈ a.note, n.toList ≠ [] ∧ trim n.toList = n.toList ∧ IsJoined n.toList

theorem IsJoined.trimStart {n : List Char} (h : IsJoined n) : trimStart n = n := by
  cases n with
  | nil => rfl
  | cons c n =>
    refine List.dropWhile_cons_of_neg ?_
    by_cases hc : c = ','
    · subst hc
      decide
    · obtain ⟨p, ps, hsplit, hp, -⟩ := h
      obtain ⟨q, qs, hq⟩ := List.exists_cons_of_ne_nil (split_ne_nil ',' n)
      rw [split, if_neg hc, hq, List.cons.injEq] at hsplit
      obtain ⟨rfl, -⟩ := hsplit
      simpa using head_not_blank_of_trim hp

theorem IsJoined.trim {n : List Char} (h : IsJoined n) : IsJoined (trim n) := by
  obtain ⟨post, hn, hpost⟩ := exists_trimEnd n
  have htrim : Text.trim n = trimEnd n := by rw [Text.trim, h.trimStart]
  have hcomma : ',' ∉ post := fun hc => absurd (hpost _ hc) (by decide)
  obtain ⟨p, ps, hsplit, hp, hps⟩ := h
  obtain ⟨qs, q, hqs, hadd⟩ := exists_split_append ',' (trimEnd n)
  rw [hn, hadd post hcomma] at hsplit
  rw [htrim]
  cases qs with
  | nil =>
    have hq : trimEnd n = q := by rw [← join_split ',' (trimEnd n), hqs]; rfl
    exact ⟨q, [], hqs, by rw [← hq, ← htrim, trim_trim], by simp⟩
  | cons r qs =>
    rw [List.cons_append, List.cons.injEq] at hsplit
    obtain ⟨rfl, rfl⟩ := hsplit
    simp only [List.forall_mem_append, List.forall_mem_singleton, Part.of_append_eq_other hpost] at hps
    exact ⟨r, qs ++ [q], hqs, hp, by simpa [or_imp, forall_and] using hps⟩

theorem isNormal_parse (inner : List Char) : (parse inner).IsNormal := by
  have hst : ((split ',' inner).foldl State.add ⟨none, none, false⟩).Sound := by
    refine State.foldl_add (fun st hst p hp => State.sound_add hst fun hc => ?_) ⟨nofun, nofun⟩
    exact (mem_of_mem_split hp hc).2 rfl
  constructor
  · intro t ht
    obtain ⟨s, hs, hfilled⟩ := Option.bind_eq_some_iff.1 ht
    obtain ⟨hne, rfl⟩ := filled_eq_some.1 hfilled
    exact ⟨hne, hst.typeTag _ hs⟩
  · intro n hn
    obtain ⟨s, hs, hfilled⟩ := Option.bind_eq_some_iff.1 hn
    obtain ⟨hne, htrim⟩ := filled_eq_some.1 hfilled
    rw [← htrim]
    exact ⟨hne, trim_trim s, (hst.note s hs).trim⟩

/-! ### Condensed comments -/

/-- The inside of the condensed comment. -/
def inside (a : Annotation) : List Char := ' ' :: (join ", ".toList a.parts ++ [' '])

theorem render_of_isEmpty {a : Annotation} (h : a.isEmpty = true) : a.render = [] := by
  obtain ⟨_ | t, _ | n⟩ := a
  · rfl
  all_goals contradiction

theorem render_of_not_isEmpty {a : Annotation} (h : a.isEmpty = false) :
    a.render = '/' :: '*' :: (a.inside ++ ['*', '/']) := by
  have hne : a.parts ≠ [] := by
    obtain ⟨_ | t, _ | n⟩ := a
    · contradiction
    all_goals exact List.cons_ne_nil _ _
  rw [render, if_neg hne, inside, List.cons_append, List.append_assoc, List.append_assoc]
  rfl

/-- A note is read up to its end, with the commas in it. -/
theorem State.foldl_add_note {n : List Char} (h : IsJoined n) (st : State) : ∃ m,
    (split ',' (' ' :: ("note:".toList ++ (n ++ [' '])))).foldl State.add st = ⟨st.typeTag, some m, true⟩ ∧
      trim m = trim n := by
  have hspace : ∀ c ∈ [' '], isBlank c = true := List.forall_mem_singleton.2 rfl
  have hend : trim (n ++ [' ']) = trim n := trim_append_blanks hspace n
  have hfold {r : List Char} {rs : List (List Char)} (hr : split ',' (n ++ [' ']) = r :: rs)
      (hrs : ∀ p ∈ rs, Part.of p = .other p) :
      (split ',' (' ' :: ("note:".toList ++ (n ++ [' '])))).foldl State.add st =
        ⟨st.typeTag, some (trim r ++ rs.flatMap (',' :: ·)), true⟩ := by
    have hmark : ',' ∉ ' ' :: "note:".toList := by decide
    have hsplit := split_append_left hmark hr
    have hadd : st.add (' ' :: "note:".toList ++ r) = ⟨st.typeTag, some (trim r), true⟩ := by
      rw [State.add, List.cons_append, Part.of_note]
    rw [← List.cons_append, hsplit, List.foldl_cons, hadd, State.foldl_add_other hrs]
  obtain ⟨p, ps, hsplit, hp, hps⟩ := h
  obtain ⟨qs, q, hqs, hadd⟩ := exists_split_append ',' n
  have hr := hadd [' '] (by decide)
  cases qs with
  | nil =>
    have hq : n = q := by rw [← join_split ',' n, hqs]; rfl
    refine ⟨_, hfold hr (by simp), ?_⟩
    rw [List.flatMap_nil, List.append_nil, trim_trim, ← hq, hend]
  | cons r qs =>
    rw [hqs, List.cons_append, List.cons.injEq] at hsplit
    obtain ⟨rfl, rfl⟩ := hsplit
    rw [List.cons_append] at hr
    refine ⟨_, hfold hr ?_, ?_⟩
    · simp only [List.forall_mem_append, List.forall_mem_singleton] at hps ⊢
      exact hps.imp_right (Part.of_append_eq_other hspace).2
    · have hjoin : join [','] ([] ++ r :: (qs ++ [q ++ [' ']])) = _ := join_append_cons [] r (qs ++ [q ++ [' ']])
      rw [List.nil_append, List.flatMap_nil, List.nil_append, ← hr, join_split] at hjoin
      rw [hp, ← hjoin, hend]

theorem notMem_typeTag {s : List Char} (h : ',' ∉ s) : ',' ∉ ' ' :: ("xs:".toList ++ s) := by simpa using h

theorem State.add_typeTag (st : State) (s : List Char) :
    st.add (' ' :: ("xs:".toList ++ s)) = ⟨some (trim s), st.note, false⟩ := by
  rw [State.add, Part.of_typeTag]

/-- What stands in a condensed comment is read as the annotation it was made from. -/
theorem parse_inside {a : Annotation} (h : a.IsNormal) : parse a.inside = a := by
  have hend (s : List Char) : trim (s ++ [' ']) = trim s := trim_append_blanks (List.forall_mem_singleton.2 rfl) s
  have hfilled {t : String} (ht : t.toList ≠ [] ∧ trim t.toList = t.toList) : filled (trim t.toList) = some t :=
    filled_eq_some.2 ⟨by rw [ht.2]; exact ht.1, ht.2⟩
  obtain ⟨_ | t, _ | n⟩ := a
  · rfl
  · obtain ⟨hne, htrim, hjoined⟩ := h.note n rfl
    obtain ⟨m, hfold, hm⟩ := State.foldl_add_note hjoined ⟨none, none, false⟩
    have hinside : inside ⟨none, some n⟩ = ' ' :: ("note:".toList ++ (n.toList ++ [' '])) := by
      simp [inside, parts, join]
    simp only [parse, hinside, hfold, Option.bind_none, Option.bind_some, hm, hfilled ⟨hne, htrim⟩]
  · obtain ⟨hne, htrim, hcomma⟩ := h.typeTag t rfl
    have hinside : inside ⟨some t, none⟩ = ' ' :: ("xs:".toList ++ (t.toList ++ [' '])) := by
      simp [inside, parts, join]
    have hsplit := split_of_notMem (notMem_typeTag (s := t.toList ++ [' ']) (by simpa using hcomma))
    simp only [parse, hinside, hsplit, List.foldl_cons, List.foldl_nil, State.add_typeTag, hend, htrim,
      Option.bind_none, Option.bind_some, filled_eq_some.2 ⟨hne, rfl⟩]
  · obtain ⟨hne, htrim, hcomma⟩ := h.typeTag t rfl
    obtain ⟨hne', htrim', hjoined⟩ := h.note n rfl
    obtain ⟨m, hfold, hm⟩ := State.foldl_add_note hjoined ⟨some (trim t.toList), none, false⟩
    have hinside : inside ⟨some t, some n⟩ =
        (' ' :: ("xs:".toList ++ t.toList)) ++ ',' :: ' ' :: ("note:".toList ++ (n.toList ++ [' '])) := by
      simp [inside, parts, join]
    have hsplit := split_append_cons (notMem_typeTag hcomma) (' ' :: ("note:".toList ++ (n.toList ++ [' '])))
    simp only [parse, hinside, hsplit, List.foldl_cons, State.add_typeTag, hfold, Option.bind_some, hm,
      hfilled ⟨hne, htrim⟩, hfilled ⟨hne', htrim'⟩]

theorem noEnd_join {ps : List (List Char)} (h : ∀ p ∈ ps, NoEnd p) : NoEnd (join ", ".toList ps) := by
  induction ps with
  | nil => exact noEnd_nil
  | cons p ps ih =>
    rw [List.forall_mem_cons] at h
    cases ps with
    | nil => exact h.1
    | cons q ps =>
      have hrest : NoEnd (' ' :: join ", ".toList (q :: ps)) := noEnd_nil.append_cons (by decide) (by decide) (ih h.2)
      have hall := h.1.append_cons (c := ',') (by decide) (by decide) hrest
      rw [join, List.append_assoc]
      · exact hall
      · simp

/-- A condensed comment does not end early. -/
theorem noEnd_inside {inner : List Char} (h : NoEnd inner) : NoEnd (parse inner).inside := by
  have hst : ((split ',' inner).foldl State.add ⟨none, none, false⟩).Stays :=
    State.foldl_add (fun st hst p hp => State.stays_add hst (h.of_isInfix (isInfix_of_mem_split hp)))
      ⟨nofun, nofun⟩
  have hparts : ∀ p ∈ (parse inner).parts, NoEnd p := by
    intro p hp
    obtain hp | hp := List.mem_append.1 hp
    · obtain ⟨t, ht, rfl⟩ := Option.map_eq_some_iff.1 (Option.mem_toList.1 hp)
      obtain ⟨s, hs, hfilled⟩ := Option.bind_eq_some_iff.1 ht
      obtain ⟨-, rfl⟩ := filled_eq_some.1 hfilled
      exact NoEnd.append_cons (s := "xs".toList) (by decide) (by decide) (by decide) (hst.typeTag _ hs)
    · obtain ⟨n, hn, rfl⟩ := Option.map_eq_some_iff.1 (Option.mem_toList.1 hp)
      obtain ⟨s, hs, hfilled⟩ := Option.bind_eq_some_iff.1 hn
      obtain ⟨-, htrim⟩ := filled_eq_some.1 hfilled
      have hnote : NoEnd n.toList := htrim ▸ (hst.note s hs).of_isInfix (trim_isInfix s)
      exact NoEnd.append_cons (s := "note".toList) (by decide) (by decide) (by decide) hnote
  exact noEnd_nil.append_cons (by decide) (by decide)
    ((noEnd_join hparts).append_cons (by decide) (by decide) noEnd_nil)

end Annotation

namespace Template
open Document

/-! ### Templates -/

/-- Every slash of a text is in a string literal or in a comment that ends. -/
inductive Enclosed : List Char → Prop
  | nil : Enclosed []
  | char {c : Char} (hquote : c ≠ '"') (hslash : c ≠ '/') {s : List Char} (h : Enclosed s) : Enclosed (c :: s)
  | literal {b s : List Char} (hb : IsBody b) (h : Enclosed s) : Enclosed ('"' :: (b ++ '"' :: s))
  /-- A literal that is never closed. -/
  | openLiteral {s : List Char} (hs : ∀ b t, IsBody b → s ≠ b ++ '"' :: t) : Enclosed ('"' :: s)
  | comment {inner s : List Char} (hinner : NoEnd inner) (h : Enclosed s) :
    Enclosed ('/' :: '*' :: (inner ++ '*' :: '/' :: s))

theorem literalLength_open {s : List Char} (hs : ∀ b t, IsBody b → s ≠ b ++ '"' :: t) :
    literalLength s = s.length := by
  induction s using literalLength.induct with
  | case1 => rfl
  | case2 => rfl
  | case3 c s ih =>
    rw [literalLength, ih fun b t hb h => hs _ t (.escape c hb) (by rw [h]; rfl)]
    rfl
  | case4 s => exact absurd rfl (hs [] s .nil)
  | case5 c s hone hescape hquote ih =>
    have hslash : c ≠ '\\' := ne_backslash hone hescape
    rw [literalLength, if_neg hquote, ih fun b t hb h => hs _ t (.char hquote hslash hb) (by rw [h]; rfl)]
    · rfl
    · exact hone
    · exact hescape

section
variable (f : List Char → List Char) {s : List Char}

theorem replaceComments_literal_append {b : List Char} (hb : IsBody b) (s : List Char) :
    replaceComments f ('"' :: (b ++ '"' :: s)) = '"' :: (b ++ '"' :: replaceComments f s) := by
  simpa using replaceComments_literal f hb s

theorem replaceComments_open (hs : ∀ b t, IsBody b → s ≠ b ++ '"' :: t) :
    replaceComments f ('"' :: s) = '"' :: s := by
  have hlength : literalLength (s ++ []) = s.length := by rw [List.append_nil, literalLength_open hs]
  have hquote := replaceComments_quote f hlength
  have hnil : replaceComments f [] = [] := rfl
  rwa [hnil, List.append_nil] at hquote

theorem replaceComments_comment_append {inner : List Char} (h : NoEnd inner) (s : List Char) :
    replaceComments f ('/' :: '*' :: (inner ++ '*' :: '/' :: s)) = f inner ++ replaceComments f s := by
  simpa using replaceComments_comment f h s

end

end Template

namespace Annotation
open Template Document

/-! ### Condensed templates -/

/-- To replace the comments of a condensed template is to replace those of the template by what the condensed ones
are replaced by. -/
theorem replaceComments_hints (f : List Char → List Char) {s : List Char} (h : Enclosed s) :
    replaceComments f (hints s) = replaceComments
    (fun inner => if (parse inner).isEmpty then [] else f (parse inner).inside) s := by
  induction h with
  | nil => rfl
  | @char c hquote hslash s _ ih =>
    have hpass (g : List Char → List Char) (t : List Char) : replaceComments g (c :: t) = c :: replaceComments g t :=
      replaceComments_char g hquote hslash t
    rw [hints, hpass, hpass, hpass, ← ih, hints]
  | literal hb _ ih =>
    rw [hints, replaceComments_literal_append _ hb, replaceComments_literal_append _ hb,
      replaceComments_literal_append _ hb, ← ih, hints]
  | openLiteral hs => rw [hints, replaceComments_open _ hs, replaceComments_open _ hs, replaceComments_open _ hs]
  | @comment inner s hinner _ ih =>
    rw [hints, replaceComments_comment_append _ hinner, replaceComments_comment_append _ hinner, ← ih, hints]
    cases hempty : (parse inner).isEmpty with
    | true => rw [render_of_isEmpty hempty, if_pos rfl]; rfl
    | false =>
      rw [render_of_not_isEmpty hempty, if_neg Bool.false_ne_true]
      exact replaceComments_comment f (noEnd_inside hinner) _

/-- The annotations of a text that stands behind another one. -/
def annotationsBehind (before s : List Char) : List Annotation :=
  (commentsBehind before s).map fun (_, inner) => parse inner

theorem annotations_eq (s : List Char) :
    (fieldAnnotations s).map FieldAnnotation.annotation = annotationsBehind [] s := by
  rw [fieldAnnotations, List.map_map, annotationsBehind, ← comments_eq]
  rfl

theorem annotationsBehind_comment {inner : List Char} (h : NoEnd inner) (before s : List Char) :
    annotationsBehind before ('/' :: '*' :: (inner ++ '*' :: '/' :: s)) =
      parse inner :: annotationsBehind (before ++ '/' :: '*' :: (inner ++ ['*', '/'])) s := by
  rw [annotationsBehind, commentsBehind_comment h, List.map_cons, ← annotationsBehind]

theorem annotationsBehind_hints {s : List Char} (h : Enclosed s) (before before' : List Char) :
    annotationsBehind before (hints s) = (annotationsBehind before' s).filter (!·.isEmpty) := by
  induction h generalizing before before' with
  | nil => rfl
  | @char c hquote hslash s _ ih =>
    have hhints : hints (c :: s) = c :: hints s := replaceComments_char _ hquote hslash s
    rw [annotationsBehind, annotationsBehind, hhints, commentsBehind_char hquote hslash,
      commentsBehind_char hquote hslash, ← annotationsBehind, ← annotationsBehind, ih]
  | literal hb _ ih =>
    rw [hints, replaceComments_literal_append _ hb, annotationsBehind, annotationsBehind, commentsBehind_literal hb,
      commentsBehind_literal hb, ← annotationsBehind, ← annotationsBehind, ← hints, ih]
  | @openLiteral s hs =>
    have hlength : literalLength (s ++ []) = s.length := by rw [List.append_nil, literalLength_open hs]
    have hnone (b : List Char) : commentsBehind b ('"' :: s) = [] := by
      have hquote := commentsBehind_quote b hlength
      rwa [List.append_nil, commentsBehind_nil] at hquote
    rw [hints, replaceComments_open _ hs, annotationsBehind, annotationsBehind, hnone, hnone]
    rfl
  | @comment inner s hinner _ ih =>
    rw [annotationsBehind_comment hinner, hints, replaceComments_comment_append _ hinner, ← hints, List.filter_cons]
    cases hempty : (parse inner).isEmpty with
    | true =>
      rw [render_of_isEmpty hempty, if_neg (by decide), List.nil_append]
      exact ih before _
    | false =>
      have hinside := parse_inside (isNormal_parse inner)
      have hhead := annotationsBehind_comment (noEnd_inside hinner) before (hints s)
      rw [hinside, ih _ (before' ++ '/' :: '*' :: (inner ++ ['*', '/']))] at hhead
      rw [render_of_not_isEmpty hempty, if_pos (by decide), ← hhead]
      simp

/-- Condensing the annotations of a template leaves what is around them, keeps each annotation that holds something,
and does nothing more when it is done again. -/
theorem hints_condensed {t : List Char} (h : Enclosed t) :
    stripComments (hints t) = stripComments t ∧ sampleText (hints t) = sampleText t ∧
      (fieldAnnotations (hints t)).map FieldAnnotation.annotation =
        ((fieldAnnotations t).map FieldAnnotation.annotation).filter (!·.isEmpty) ∧
      hints (hints t) = hints t ∧
      ∀ inner, (parse inner).isEmpty = false →
        ∃ s, (parse inner).render = "/*".toList ++ (s ++ "*/".toList) ∧
          parse s = parse inner := by
  have hstrip : stripComments (hints t) = stripComments t := by
    rw [stripComments, replaceComments_hints _ h, stripComments]
    simp only [ite_self]
  refine ⟨hstrip, by rw [sampleText, hstrip, sampleText], ?_, ?_, fun inner hempty => ?_⟩
  · rw [annotations_eq, annotations_eq, annotationsBehind_hints h]
  · have hrender (inner : List Char) : (if (parse inner).isEmpty then []
        else (parse (parse inner).inside).render) = (parse inner).render := by
      rw [parse_inside (isNormal_parse inner)]
      split
      · next hempty => rw [render_of_isEmpty hempty]
      · rfl
    rw [hints, replaceComments_hints _ h]
    simp only [hrender]
    rfl
  · exact ⟨_, render_of_not_isEmpty hempty, parse_inside (isNormal_parse inner)⟩

/-- A literal that looks like a comment, an annotation with a star before its end, and one that holds nothing. -/
theorem hints_condensed_star : Enclosed "\"/*\"/*xs:a, note:b, c **/1/*req*/".toList ∧
    hints "\"/*\"/*xs:a, note:b, c **/1/*req*/".toList = "\"/*\"/* xs:a, note:b, c * */1".toList ∧
    hints (hints "\"/*\"/*xs:a, note:b, c **/1/*req*/".toList) =
      hints "\"/*\"/*xs:a, note:b, c **/1/*req*/".toList := by
  have htext : "\"/*\"/*xs:a, note:b, c **/1/*req*/".toList = '"' :: ("/*".toList ++ '"' ::
      '/' :: '*' :: ("xs:a, note:b, c *".toList ++ '*' :: '/' :: '1' ::
        '/' :: '*' :: ("req".toList ++ '*' :: '/' :: []))) := by decide +kernel
  have hclosed : Enclosed "\"/*\"/*xs:a, note:b, c **/1/*req*/".toList := by
    rw [htext]
    have hbody : IsBody ['/', '*'] := .char (by decide) (by decide) (.char (by decide) (by decide) .nil)
    have hinner : NoEnd "xs:a, note:b, c *".toList := by simp [noEnd_cons, noEnd_nil]
    exact .literal hbody (.comment hinner (.char (by decide) (by decide) (.comment (by decide) .nil)))
  exact ⟨hclosed, by decide +kernel, (hints_condensed hclosed).2.2.2.1⟩

end Annotation
end MockRedirect
