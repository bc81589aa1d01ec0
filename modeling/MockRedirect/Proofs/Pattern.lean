import MockRedirect.Text.Pattern
/-! Searching with marked positions finds exactly the texts that a pattern occurs in. Main statement:
`Pattern.isIn_iff`. -/
namespace MockRedirect.Pattern

/-- The position after `pre` is on. -/
def Marked (marks : List Bool) (pre : List Char) : Prop := marks[pre.length]? = some true

variable {set : Char → Bool} {marks : List Bool} {pre post : List Char}

theorem marked_cons {m : Bool} {c : Char} :
    Marked (m :: marks) (c :: pre) ↔ Marked marks pre := by
  simp [Marked]

/-! ### Lengths -/

@[simp] theorem length_onlyFirst (marks : List Bool) :
    (onlyFirst marks).length = marks.length := by
  cases marks <;> simp [onlyFirst]

@[simp] theorem length_onlyLast (marks : List Bool) : (onlyLast marks).length = marks.length := by
  induction marks with
  | nil => rfl
  | cons m marks ih => cases marks <;> simp_all [onlyLast]

@[simp] theorem length_spread (set : Char → Bool) (on : Bool) (s : List Char)
    (marks : List Bool) : (spread set on s marks).length = marks.length := by
  induction marks generalizing on s with
  | nil => rfl
  | cons m marks ih => simp [spread, ih]

theorem length_ends (p : Pattern) {s : List Char} (h : marks.length = s.length + 1) :
    (p.ends s marks).length = s.length + 1 := by
  induction p generalizing marks with
  | empty => exact h
  | start => simpa [ends] using h
  | finish => simpa [ends] using h
  | one set => simp [ends, h]
  | many set => simpa [ends] using h
  | seq p q ihp ihq => exact ihq (ihp h)
  | either p q ihp ihq => simp [ends, ihp h, ihq h]

/-! ### One pattern -/

theorem marked_onlyFirst : Marked (onlyFirst marks) pre ↔ pre = [] ∧ Marked marks pre := by
  cases marks with
  | nil => simp [onlyFirst, Marked]
  | cons m marks =>
    cases pre with
    | nil => simp [onlyFirst, Marked]
    | cons c pre =>
      have hoff : ¬Marked (marks.map fun _ => false) pre := by
        rw [Marked, List.getElem?_map]
        cases marks[pre.length]? <;> simp
      simp only [onlyFirst, marked_cons, hoff, List.cons_ne_nil, false_and]

theorem marked_onlyLast (h : marks.length = (pre ++ post).length + 1) :
    Marked (onlyLast marks) pre ↔ post = [] ∧ Marked marks pre := by
  induction pre generalizing marks with
  | nil =>
    match marks, post with
    | [m], [] => simp [onlyLast, Marked]
    | _ :: _ :: _, _ :: _ => simp [onlyLast, Marked]
  | cons c pre ih =>
    match marks with
    | m :: n :: marks =>
      have hl : (n :: marks).length = (pre ++ post).length + 1 := by simpa using h
      simpa [onlyLast, marked_cons] using ih hl

/-- After one character of a set the position moves on by one. -/
theorem marked_one (h : marks.length = (pre ++ post).length + 1) :
    Marked (false :: List.zipWith (fun c m => m && set c) (pre ++ post) marks) pre ↔
      ∃ u v, pre = u ++ v ∧ Marked marks u ∧ ∃ c, set c = true ∧ v = [c] := by
  rcases List.eq_nil_or_concat pre with rfl | ⟨u, c, rfl⟩
  · simp [Marked]
  · have hu : u.length < marks.length := by simp at h; omega
    have hc : (u ++ [c] ++ post)[u.length]? = some c := by simp
    constructor
    · intro hm
      refine ⟨u, [c], by simp, ?_⟩
      simp only [Marked, List.concat_eq_append, List.length_append, List.length_singleton,
        List.getElem?_cons_succ, List.getElem?_zipWith, hc, List.getElem?_eq_getElem hu] at hm ⊢
      simp_all
    · rintro ⟨u', _, he, hm, c', hc', rfl⟩
      obtain ⟨rfl, rfl⟩ : u = u' ∧ c = c' := by simpa using he
      simp only [Marked] at hm
      simp [Marked, List.getElem?_zipWith, hm, hc']

/-- A run that is going on reaches every position as long as its characters are in the set. -/
theorem marked_spread {on : Bool} (h : pre.length < marks.length) :
    Marked (spread set on (pre ++ post) marks) pre ↔
      (on = true ∧ ∀ c ∈ pre, set c = true) ∨
        ∃ u v, pre = u ++ v ∧ Marked marks u ∧ ∀ c ∈ v, set c = true := by
  induction pre generalizing on marks with
  | nil =>
    match marks with
    | m :: marks =>
      have hu : (∃ u v, ([] : List Char) = u ++ v ∧ Marked (m :: marks) u ∧
          ∀ c ∈ v, set c = true) ↔ m = true := by
        constructor
        · rintro ⟨u, v, he, hm, _⟩
          obtain ⟨rfl, rfl⟩ : u = [] ∧ v = [] := by simpa using he
          simpa [Marked] using hm
        · rintro rfl
          exact ⟨[], [], rfl, rfl, by simp⟩
      rw [hu]
      simp [spread, Marked]
  | cons c pre ih =>
    match marks with
    | m :: marks =>
      have hl : pre.length < marks.length := by simpa using h
      simp only [List.cons_append, spread, List.head?_cons, List.tail_cons, marked_cons, ih hl]
      constructor
      · rintro (⟨hon, hp⟩ | ⟨u, v, rfl, hu, hv⟩)
        · simp only [Option.any_some, Bool.and_eq_true, Bool.or_eq_true] at hon
          rcases hon with ⟨hon | hm, hc⟩
          · exact .inl ⟨hon, by simpa [hc] using hp⟩
          · exact .inr ⟨[], c :: pre, rfl, by simp [Marked, hm], by simpa [hc] using hp⟩
        · exact .inr ⟨c :: u, v, rfl, marked_cons.2 hu, hv⟩
      · rintro (⟨hon, hp⟩ | ⟨u, v, he, hu, hv⟩)
        · obtain ⟨hc, hp⟩ := List.forall_mem_cons.1 hp
          exact .inl ⟨by simp [hon, hc], hp⟩
        · cases u with
          | nil =>
            obtain rfl : c :: pre = v := by simpa using he
            obtain ⟨hc, hp⟩ := List.forall_mem_cons.1 hv
            have hm : m = true := by simpa [Marked] using hu
            exact .inl ⟨by simp [hm, hc], hp⟩
          | cons d u =>
            obtain ⟨rfl, rfl⟩ : c = d ∧ pre = u ++ v := by simpa using he
            exact .inr ⟨u, v, rfl, marked_cons.1 hu, hv⟩

/-! ### All patterns -/

theorem marked_either {left right : List Bool} (h : left.length = right.length) :
    Marked (List.zipWith (· || ·) left right) pre ↔ Marked left pre ∨ Marked right pre := by
  simp only [Marked, List.getElem?_zipWith]
  by_cases hp : pre.length < left.length
  · have hr : pre.length < right.length := h ▸ hp
    simp [List.getElem?_eq_getElem hp, List.getElem?_eq_getElem hr]
  · have hr : right.length ≤ pre.length := by omega
    simp [List.getElem?_eq_none (Nat.le_of_not_lt hp), List.getElem?_eq_none hr]

/-- A pattern can end at a position when it spans a stretch from a marked position up to there. -/
theorem marked_ends (p : Pattern) (h : marks.length = (pre ++ post).length + 1) :
    Marked (p.ends (pre ++ post) marks) pre ↔
      ∃ u v, pre = u ++ v ∧ Marked marks u ∧ p.Spans u v post := by
  induction p generalizing marks pre post with
  | empty => simp [ends, Spans]
  | start =>
    rw [ends, marked_onlyFirst]
    simp only [Spans]
    constructor
    · rintro ⟨rfl, hm⟩
      exact ⟨[], [], rfl, hm, rfl, rfl⟩
    · rintro ⟨_, _, rfl, hm, rfl, rfl⟩
      exact ⟨rfl, hm⟩
  | finish =>
    rw [ends, marked_onlyLast h]
    simp only [Spans]
    constructor
    · rintro ⟨rfl, hm⟩
      exact ⟨pre, [], by simp, hm, rfl, rfl⟩
    · rintro ⟨u, _, rfl, hm, rfl, rfl⟩
      exact ⟨rfl, by simpa using hm⟩
  | one set => exact marked_one h
  | many set =>
    have hlt : pre.length < marks.length := by
      rw [h, List.length_append]
      omega
    rw [ends, marked_spread hlt]
    simp [Spans]
  | seq p q ihp ihq =>
    have hp := length_ends p h
    rw [ends, ihq hp]
    constructor
    · rintro ⟨u, w, rfl, hm, hq⟩
      rw [List.append_assoc] at h hm
      obtain ⟨u, v, rfl, hm, hp⟩ := (ihp h).1 hm
      exact ⟨u, v ++ w, by simp, hm, v, w, rfl, hp, hq⟩
    · rintro ⟨u, _, rfl, hm, v, w, rfl, hp, hq⟩
      refine ⟨u ++ v, w, by simp, ?_, hq⟩
      have he : u ++ (v ++ w) ++ post = (u ++ v) ++ (w ++ post) := by simp
      rw [he] at h ⊢
      exact (ihp h).2 ⟨u, v, rfl, hm, hp⟩
  | either p q ihp ihq =>
    rw [ends, marked_either ((length_ends p h).trans (length_ends q h).symm), ihp h, ihq h]
    simp only [Spans]
    constructor
    · rintro (⟨u, v, he, hm, hs⟩ | ⟨u, v, he, hm, hs⟩)
      · exact ⟨u, v, he, hm, .inl hs⟩
      · exact ⟨u, v, he, hm, .inr hs⟩
    · rintro ⟨u, v, he, hm, hs | hs⟩
      · exact .inl ⟨u, v, he, hm, hs⟩
      · exact .inr ⟨u, v, he, hm, hs⟩

/-- Some position of a text is on when a position after some front of it is. -/
theorem any_iff_marked {s : List Char} (h : marks.length = s.length + 1) :
    marks.any id = true ↔ ∃ pre post, s = pre ++ post ∧ Marked marks pre := by
  rw [List.any_eq_true]
  constructor
  · rintro ⟨b, hb, rfl⟩
    obtain ⟨i, hi, he⟩ := List.mem_iff_getElem.1 hb
    refine ⟨s.take i, s.drop i, by simp, ?_⟩
    have hl : (s.take i).length = i := by simp; omega
    rw [Marked, hl, List.getElem?_eq_getElem hi, he]
  · rintro ⟨pre, post, rfl, hm⟩
    exact ⟨true, List.mem_of_getElem? hm, rfl⟩

/-- The search finds a pattern exactly in the texts that it occurs in. -/
theorem isIn_iff (p : Pattern) (s : List Char) : p.isIn s = true ↔ p.OccursIn s := by
  have hall : (everywhere s).length = s.length + 1 := by simp [everywhere]
  rw [isIn, any_iff_marked (length_ends p hall)]
  constructor
  · rintro ⟨pre, post, rfl, hm⟩
    obtain ⟨u, v, rfl, _, hs⟩ := (marked_ends p hall).1 hm
    exact ⟨u, v, post, rfl, hs⟩
  · rintro ⟨u, v, post, rfl, hs⟩
    have hu : Marked (everywhere (u ++ v ++ post)) u := by
      simp only [Marked, everywhere, List.getElem?_replicate]
      have hlt : u.length < (u ++ v ++ post).length + 1 := by
        rw [List.length_append, List.length_append]
        omega
      exact if_pos hlt
    exact ⟨u ++ v, post, rfl, (marked_ends p hall).2 ⟨u, v, rfl, hu, hs⟩⟩

/-! ### Chains -/

variable {p : Pattern} {ps qs : List Pattern} {s : List Char}

@[simp] theorem spans_chain_nil : (chain []).Spans pre s post ↔ s = [] := Iff.rfl

theorem spans_chain_cons : (chain (p :: ps)).Spans pre s post ↔
    ∃ u v, s = u ++ v ∧ p.Spans pre u (v ++ post) ∧ (chain ps).Spans (pre ++ u) v post := Iff.rfl

@[simp] theorem spans_chain_singleton : (chain [p]).Spans pre s post ↔ p.Spans pre s post := by
  rw [spans_chain_cons]
  constructor
  · rintro ⟨u, _, rfl, hp, rfl⟩
    simpa using hp
  · intro hp
    exact ⟨s, [], by simp, by simpa using hp, rfl⟩

theorem spans_chain_append : (chain (ps ++ qs)).Spans pre s post ↔
    ∃ u v, s = u ++ v ∧ (chain ps).Spans pre u (v ++ post) ∧ (chain qs).Spans (pre ++ u) v post := by
  induction ps generalizing pre s with
  | nil =>
    constructor
    · intro h
      exact ⟨[], s, rfl, rfl, by simpa using h⟩
    · rintro ⟨_, v, rfl, rfl, hq⟩
      simpa using hq
  | cons p ps ih =>
    simp only [List.cons_append, spans_chain_cons, ih]
    constructor
    · rintro ⟨u, _, rfl, hp, v, w, rfl, hps, hqs⟩
      exact ⟨u ++ v, w, by simp, ⟨u, v, rfl, by simpa using hp, hps⟩, by simpa using hqs⟩
    · rintro ⟨_, w, rfl, ⟨u, v, rfl, hp, hps⟩, hqs⟩
      exact ⟨u, v ++ w, by simp, by simpa using hp, v, w, rfl, hps, by simpa using hqs⟩

end MockRedirect.Pattern
