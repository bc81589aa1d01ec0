import MockRedirect.Text.Blank
import MockRedirect.Text.Pieces
import Mathlib.Data.List.DropRight
/-! Cutting undoes joining. -/
namespace MockRedirect.Text

variable {sep : Char} {s t : List Char}

theorem split_of_notMem (h : sep ∉ s) : split sep s = [s] := by
  induction s with
  | nil => rfl
  | cons c s ih =>
    rw [List.mem_cons, not_or] at h
    rw [split, if_neg (Ne.symm h.1), ih h.2]

theorem split_append_cons (h : sep ∉ s) (t : List Char) :
    split sep (s ++ sep :: t) = s :: split sep t := by
  induction s with
  | nil => simp [split]
  | cons c s ih =>
    rw [List.mem_cons, not_or] at h
    rw [List.cons_append, split, if_neg (Ne.symm h.1), ih h.2]

theorem split_append (s t : List Char) : split sep (s ++ sep :: t) = split sep s ++ split sep t := by
  induction s with
  | nil => simp [split]
  | cons c s ih =>
    rw [List.cons_append, split, split, ih]
    split
    · rfl
    · obtain ⟨p, ps, hp⟩ := List.exists_cons_of_ne_nil (split_ne_nil sep s)
      rw [hp]
      rfl

theorem split_join {ss : List (List Char)} (hne : ss ≠ []) (h : ∀ s ∈ ss, sep ∉ s) :
    split sep (join [sep] ss) = ss := by
  induction ss with
  | nil => contradiction
  | cons s ss ih =>
    rw [List.forall_mem_cons] at h
    cases ss with
    | nil => exact split_of_notMem h.1
    | cons t ss =>
      rw [join, List.append_assoc, List.singleton_append, split_append_cons h.1,
        ih (List.cons_ne_nil t ss) h.2]
      exact List.cons_ne_nil t ss

theorem mem_join {ss : List (List Char)} {c : Char} (h : c ∈ join [sep] ss) :
    c = sep ∨ ∃ s ∈ ss, c ∈ s := by
  induction ss with
  | nil => contradiction
  | cons s ss ih =>
    cases ss with
    | nil => exact Or.inr ⟨s, List.mem_cons_self, h⟩
    | cons t ss =>
      simp only [join, List.append_assoc, List.singleton_append, List.mem_append, List.mem_cons] at h
      obtain h | h | h := h
      · exact Or.inr ⟨s, List.mem_cons_self, h⟩
      · exact Or.inl h
      · obtain h | ⟨u, hu, hc⟩ := ih h
        · exact Or.inl h
        · exact Or.inr ⟨u, List.mem_cons_of_mem _ hu, hc⟩

/-- What is joined before a piece, the piece, and what is joined behind it. -/
theorem join_append_cons (ss : List (List Char)) (s : List Char) (ts : List (List Char)) :
    join [sep] (ss ++ s :: ts) = ss.flatMap (· ++ [sep]) ++ (s ++ ts.flatMap (sep :: ·)) := by
  induction ss with
  | nil =>
    induction ts generalizing s with
    | nil => simp [join]
    | cons t ts ih =>
      rw [List.nil_append, join, ← List.nil_append (t :: ts), ih t]
      · simp
      · exact List.cons_ne_nil t ts
  | cons p ss ih =>
    rw [List.cons_append, join, ih]
    · simp
    · simp

/-- What is added to the end of a text is added to its last piece. -/
theorem exists_split_append (sep : Char) (s : List Char) : ∃ ps p, split sep s = ps ++ [p] ∧
    ∀ g, sep ∉ g → split sep (s ++ g) = ps ++ [p ++ g] := by
  induction s with
  | nil => exact ⟨[], [], rfl, fun g hg => split_of_notMem hg⟩
  | cons c s ih =>
    obtain ⟨ps, p, hps, hadd⟩ := ih
    by_cases hc : c = sep
    · refine ⟨[] :: ps, p, by rw [split, if_pos hc, hps]; rfl, fun g hg => ?_⟩
      rw [List.cons_append, split, if_pos hc, hadd g hg]
      rfl
    · cases ps with
      | nil =>
        refine ⟨[], c :: p, by rw [split, if_neg hc, hps]; rfl, fun g hg => ?_⟩
        rw [List.cons_append, split, if_neg hc, hadd g hg]
        rfl
      | cons q ps =>
        refine ⟨(c :: q) :: ps, p, by rw [split, if_neg hc, hps]; rfl, fun g hg => ?_⟩
        rw [List.cons_append, split, if_neg hc, hadd g hg]
        rfl

/-- What is put in front of a text is put in front of its first piece. -/
theorem split_append_left {pre p : List Char} {ps : List (List Char)} (hpre : sep ∉ pre)
    (h : split sep s = p :: ps) : split sep (pre ++ s) = (pre ++ p) :: ps := by
  induction pre with
  | nil => exact h
  | cons c pre ih =>
    rw [List.mem_cons, not_or] at hpre
    rw [List.cons_append, split, if_neg (Ne.symm hpre.1), ih hpre.2]
    rfl

theorem isInfix_of_mem_split {p : List Char} (hp : p ∈ split sep s) : p <:+: s := by
  obtain ⟨ps, qs, hsplit⟩ := List.append_of_mem hp
  have hjoin := join_split sep s
  rw [hsplit, join_append_cons] at hjoin
  rw [← hjoin]
  exact ⟨_, _, List.append_assoc ..⟩

theorem mem_of_mem_split {c : Char} {p : List Char} (hp : p ∈ split sep s) (hc : c ∈ p) :
    c ∈ s ∧ c ≠ sep := by
  induction s generalizing p with
  | nil =>
    obtain rfl := List.mem_singleton.1 hp
    contradiction
  | cons d s ih =>
    rw [split] at hp
    split at hp
    · obtain rfl | hp := List.mem_cons.1 hp
      · contradiction
      · exact (ih hp hc).imp_left (List.mem_cons_of_mem _)
    · next hd =>
      obtain ⟨q, qs, hq⟩ := List.exists_cons_of_ne_nil (split_ne_nil sep s)
      rw [hq] at hp ih
      obtain rfl | hp := List.mem_cons.1 hp
      · obtain rfl | hc := List.mem_cons.1 hc
        · exact ⟨List.mem_cons_self, hd⟩
        · exact (ih List.mem_cons_self hc).imp_left (List.mem_cons_of_mem _)
      · exact (ih (List.mem_cons_of_mem _ hp) hc).imp_left (List.mem_cons_of_mem _)

theorem before_append (h : sep ∉ s) (t : List Char) : before sep (s ++ t) = s ++ before sep t :=
  List.takeWhile_append_of_pos fun c hc => by simpa using ne_of_mem_of_not_mem hc h

theorem before_append_cons (h : sep ∉ s) (t : List Char) : before sep (s ++ sep :: t) = s := by
  rw [before_append h, before, List.takeWhile_cons_of_neg (by simp), List.append_nil]

theorem before_of_notMem (h : sep ∉ s) : before sep s = s := by
  simpa [before] using before_append h []

theorem cut?_of_notMem (h : sep ∉ s) : cut? sep s = none := by
  induction s with
  | nil => rfl
  | cons c s ih =>
    rw [List.mem_cons, not_or] at h
    rw [cut?, if_neg (Ne.symm h.1), ih h.2]
    rfl

theorem cut?_append_cons (h : sep ∉ s) (t : List Char) : cut? sep (s ++ sep :: t) = some (s, t) := by
  induction s with
  | nil => simp [cut?]
  | cons c s ih =>
    rw [List.mem_cons, not_or] at h
    rw [List.cons_append, cut?, if_neg (Ne.symm h.1), ih h.2]
    rfl

theorem after?_append_cons {start : List Char} (h : sep ∉ start) (s t : List Char) :
    after? start (s ++ sep :: t) = (after? start s).map (· ++ sep :: t) := by
  induction start generalizing s with
  | nil => rfl
  | cons c start ih =>
    rw [List.mem_cons, not_or] at h
    cases s with
    | nil => simp [after?, Ne.symm h.1]
    | cons d s =>
      rw [List.cons_append, after?, after?]
      split
      · exact ih h.2 s
      · rfl

/-! ### Trimming -/

theorem trim_of_not_blank (h : ∀ c ∈ s, isBlank c = false) : trim s = s := by
  have hd (t : List Char) (ht : ∀ c ∈ t, isBlank c = false) : t.dropWhile isBlank = t := by
    cases t with
    | nil => rfl
    | cons c t => simp [ht c]
  rw [trim, trimStart, trimEnd, hd s h, hd s.reverse (by simpa using h), List.reverse_reverse]

theorem trimStart_append {g : List Char} (hg : ∀ c ∈ g, isBlank c = true)
    (hs : ∀ c ∈ s.head?, isBlank c = false) : trimStart (g ++ s) = s := by
  rw [trimStart, List.dropWhile_append_of_pos hg]
  cases s with
  | nil => rfl
  | cons c s => rw [List.dropWhile_cons_of_neg (by simp [hs c rfl])]

theorem trimEnd_append {g : List Char} (hg : ∀ c ∈ g, isBlank c = true)
    (hs : ∀ c ∈ s.getLast?, isBlank c = false) : trimEnd (s ++ g) = s := by
  have hstart : trimStart (g.reverse ++ s.reverse) = s.reverse :=
    trimStart_append (fun c hc => hg c (List.mem_reverse.1 hc)) (by rwa [List.head?_reverse])
  rw [trimEnd, List.reverse_append, ← trimStart, hstart, List.reverse_reverse]

/-- A text with blanks around it. -/
theorem trim_append {g g' : List Char} (hg : ∀ c ∈ g, isBlank c = true)
    (hg' : ∀ c ∈ g', isBlank c = true) (hne : s ≠ []) (hhead : ∀ c ∈ s.head?, isBlank c = false)
    (hlast : ∀ c ∈ s.getLast?, isBlank c = false) : trim (g ++ (s ++ g')) = s := by
  have hstart : trimStart (g ++ (s ++ g')) = s ++ g' := by
    refine trimStart_append hg ?_
    rwa [List.head?_append, Option.or_of_isSome (List.isSome_head?.2 hne)]
  rw [trim, hstart, trimEnd_append hg' hlast]

/-- A text and the blanks behind it. -/
theorem exists_trimEnd (s : List Char) : ∃ post, s = trimEnd s ++ post ∧ ∀ c ∈ post, isBlank c = true := by
  refine ⟨(s.reverse.takeWhile isBlank).reverse, ?_, fun c hc => List.mem_takeWhile_imp (List.mem_reverse.1 hc)⟩
  rw [trimEnd, ← List.reverse_append, List.takeWhile_append_dropWhile, List.reverse_reverse]

/-- A text and the blanks around it. -/
theorem exists_trim (s : List Char) : ∃ pre post, s = pre ++ (trim s ++ post) ∧
    (∀ c ∈ pre, isBlank c = true) ∧ ∀ c ∈ post, isBlank c = true := by
  obtain ⟨post, hpost, hblank⟩ := exists_trimEnd (trimStart s)
  refine ⟨s.takeWhile isBlank, post, ?_, fun c hc => List.mem_takeWhile_imp hc, hblank⟩
  rw [trim, ← hpost, trimStart, List.takeWhile_append_dropWhile]

/-- Characters that are not blank keep what stands in front of the end from being trimmed. -/
theorem trimEnd_append_left (hs : ∀ c ∈ s, isBlank c = false) (t : List Char) :
    trimEnd (s ++ t) = s ++ trimEnd t := by
  have hrev : s.reverse.dropWhile isBlank = s.reverse := by
    rw [List.dropWhile_eq_self_iff]
    intro hpos
    simpa using hs _ (List.mem_reverse.1 (List.getElem_mem hpos))
  rw [trimEnd, List.reverse_append, List.dropWhile_append, trimEnd]
  split
  · next ht => rw [hrev, List.isEmpty_iff.1 ht]; simp
  · simp

theorem trimEnd_append_blanks {g : List Char} (hg : ∀ c ∈ g, isBlank c = true) (s : List Char) :
    trimEnd (s ++ g) = trimEnd s := by
  rw [trimEnd, List.reverse_append, List.dropWhile_append_of_pos fun c hc => hg c (List.mem_reverse.1 hc), trimEnd]

/-- Blanks behind a text do not matter. -/
theorem trim_append_blanks {g : List Char} (hg : ∀ c ∈ g, isBlank c = true) (s : List Char) :
    trim (s ++ g) = trim s := by
  rw [trim, trim]
  by_cases hs : ∀ c ∈ s, isBlank c = true
  · have hall : trimStart (s ++ g) = [] :=
      List.dropWhile_eq_nil_iff.2 fun c hc => (List.mem_append.1 hc).elim (hs c) (hg c)
    rw [hall, trimStart, List.dropWhile_eq_nil_iff.2 hs]
  · have hne : s.dropWhile isBlank ≠ [] := fun hnil => hs (List.dropWhile_eq_nil_iff.1 hnil)
    rw [trimStart, List.dropWhile_append, if_neg (by simpa using hne), trimEnd_append_blanks hg, trimStart]

theorem trim_trimEnd (s : List Char) : trim (trimEnd s) = trim s := by
  obtain ⟨post, hpost, hblank⟩ := exists_trimEnd s
  have h := trim_append_blanks hblank (trimEnd s)
  rw [← hpost] at h
  exact h.symm

theorem trim_isInfix (s : List Char) : trim s <:+: s := by
  obtain ⟨pre, post, hs, -, -⟩ := exists_trim s
  exact ⟨pre, post, by rw [List.append_assoc]; exact hs.symm⟩

/-- The end of a text is trimmed without its start coming into play. -/
theorem dropWhile_trimEnd {s : List Char} (h : s.dropWhile isBlank = s) :
    (trimEnd s).dropWhile isBlank = trimEnd s := by
  have hpre : trimEnd s <+: s := List.rdropWhile_prefix isBlank s
  cases hs : trimEnd s with
  | nil => rfl
  | cons c t =>
    obtain ⟨u, hu⟩ := hpre
    have hc : isBlank c = false := by
      rw [hs] at hu
      subst hu
      by_contra hc
      rw [List.cons_append, List.dropWhile_cons, if_pos (by simpa using hc)] at h
      have hlen := (List.dropWhile_sublist (l := t ++ u) isBlank).length_le
      rw [h, List.length_cons] at hlen
      omega
    rw [List.dropWhile_cons, hc, if_neg Bool.false_ne_true]

theorem trimStart_trim (s : List Char) : trimStart (trim s) = trim s :=
  dropWhile_trimEnd (List.dropWhile_idempotent isBlank s)

theorem trim_trim (s : List Char) : trim (trim s) = trim s := by
  rw [trim, trimStart_trim]
  exact List.rdropWhile_idempotent isBlank (trimStart s)

/-- A text that is trimmed has no blank at its start. -/
theorem head_not_blank_of_trim {s : List Char} (h : trim s = s) : ∀ c ∈ s.head?, isBlank c = false := by
  have hstart : trimStart s = s := h ▸ trimStart_trim s
  rw [trimStart, List.dropWhile_eq_self_iff] at hstart
  cases s with
  | nil => nofun
  | cons c s =>
    rintro _ ⟨⟩
    simpa using hstart (Nat.succ_pos _)

/-- A text that is trimmed has no blank at its end. -/
theorem not_blank_of_trim {s : List Char} (h : trim s = s) : ∀ c ∈ s.getLast?, isBlank c = false := by
  intro c hc
  have hlast : (List.rdropWhile isBlank (trimStart s)).getLast? = some c := by
    rw [← h] at hc
    exact hc
  obtain ⟨hne, rfl⟩ := List.mem_getLast?_eq_getLast hlast
  simpa using List.rdropWhile_last_not isBlank (trimStart s) hne

end MockRedirect.Text
