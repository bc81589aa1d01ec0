import Mathlib.Data.List.TakeWhile
import MockRedirect.Proofs.Utf8
import MockRedirect.Text.Offset
/-! Byte offsets. The offset of a character is the number of bytes before it; between such offsets a slice gives the
characters that stand there. A loop that passes over the bytes of a character one by one comes to the next character. -/
namespace MockRedirect.Text

variable {α β σ : Type} {c d : Char} {p q r s t u : List Char} {b i j : Nat}

/-! ### Work that may panic -/

namespace Scan

theorem pure_inj {a b : α} : (pure a : Scan α) = pure b ↔ a = b :=
  ⟨fun h => Except.ok.inj (Option.some.inj h), congrArg pure⟩

theorem throw_ne_pure (e : Panic) (a : α) : (throw e : Scan α) ≠ pure a := fun h => by cases Option.some.inj h

/-- Nothing catches a panic: work has a result only if all its parts have one. -/
theorem bind_eq_pure {x : Scan α} {f : α → Scan β} {v : β} :
    x >>= f = pure v ↔ ∃ a, x = pure a ∧ f a = pure v := by
  constructor
  · intro h
    cases x with
    | none => cases h
    | some y =>
      cases y with
      | error e => cases Option.some.inj h
      | ok a => exact ⟨a, rfl, h⟩
  · rintro ⟨a, rfl, h⟩
    rw [pure_bind, h]

theorem mapM_eq_pure {γ : Type} {f : β → Scan γ} {g : α → β} {r : α → γ} {xs : List α}
    (h : ∀ x ∈ xs, f (g x) = pure (r x)) : (xs.map g).mapM f = pure (xs.map r) := by
  induction xs with
  | nil => rfl
  | cons x xs ih =>
    rw [List.forall_mem_cons] at h
    rw [List.map_cons, List.mapM_cons, h.1, pure_bind, ih h.2, pure_bind]
    rfl

end Scan

/-! ### Bytes of characters -/

/-- An ASCII character is its one byte. Any other starts with a byte above all those that continue it. -/
theorem utf8Char_cases (c : Char) : utf8Char c = [c.toNat] ∧ c.toNat < 0x80 ∨
    ∃ b bs, utf8Char c = b :: bs ∧ 0xBF < b ∧ ∀ x ∈ bs, isTail x = true := by
  unfold utf8Char
  dsimp only
  split
  · next h => exact .inl ⟨rfl, h⟩
  · right
    split
    · exact ⟨_, _, rfl, by omega, by simp [isTail_mod]⟩
    · split
      all_goals exact ⟨_, _, rfl, by omega, by simp [isTail_mod]⟩

theorem isTail_iff : isTail b = true ↔ 0x80 ≤ b ∧ b ≤ 0xBF := by
  rw [isTail, Bool.and_eq_true, decide_eq_true_iff, decide_eq_true_iff]

theorem mem_utf8Char (h : b ∈ utf8Char c) : b = c.toNat ∨ 0x80 ≤ b := by
  obtain ⟨hbytes, -⟩ | ⟨lead, bs, hbytes, hlead, hbs⟩ := utf8Char_cases c
  · rw [hbytes] at h
    exact .inl (List.mem_singleton.1 h)
  · rw [hbytes, List.mem_cons] at h
    obtain rfl | h := h
    · exact .inr (by omega)
    · exact .inr (isTail_iff.1 (hbs b h)).1

theorem exists_utf8Char (c : Char) :
    ∃ b bs, utf8Char c = b :: bs ∧ isTail b = false ∧ ∀ x ∈ bs, isTail x = true := by
  obtain ⟨hbytes, hascii⟩ | ⟨lead, bs, hbytes, hlead, hbs⟩ := utf8Char_cases c
  · exact ⟨_, [], hbytes, Bool.eq_false_iff.2 (mt isTail_iff.1 (by omega)), nofun⟩
  · exact ⟨lead, bs, hbytes, Bool.eq_false_iff.2 (mt isTail_iff.1 (by omega)), hbs⟩

/-- The byte of an ASCII character occurs in no other character. -/
theorem ne_of_mem_utf8Char (h : b ∈ utf8Char c) (hd : d.toNat < 0x80) (hcd : c ≠ d) : b ≠ d.toNat := by
  rintro rfl
  obtain hcode | hhigh := mem_utf8Char h
  · exact hcd (Char.toNat_inj.1 hcode.symm)
  · omega

theorem utf8Char_ascii (hc : c.toNat < 0x80) : utf8Char c = [c.toNat] := if_pos hc

/-! ### Sizes -/

@[simp] theorem size_nil : size [] = 0 := rfl

@[simp] theorem size_append (s t : List Char) : size (s ++ t) = size s + size t := by simp [size, utf8]

@[simp] theorem size_cons (c : Char) (s : List Char) : size (c :: s) = (utf8Char c).length + size s := by
  simp [size, utf8]

theorem utf8Char_length_pos (c : Char) : 0 < (utf8Char c).length := by
  obtain ⟨b, bs, hbytes, -⟩ := exists_utf8Char c
  rw [hbytes]
  exact Nat.succ_pos _

theorem size_ascii (hc : c.toNat < 0x80) (s : List Char) : size (c :: s) = size s + 1 := by
  rw [size_cons, utf8Char_ascii hc, List.length_singleton, Nat.add_comm]

theorem size_eq_zero_iff : size s = 0 ↔ s = [] := by
  cases s with
  | nil => exact ⟨fun _ => rfl, fun _ => rfl⟩
  | cons c s =>
    have hpos := utf8Char_length_pos c
    rw [size_cons]
    exact ⟨fun h => by omega, nofun⟩

/-! ### Offsets of characters -/

/-- At a byte offset of the first text stands the second one. -/
def At (t : List Char) (i : Nat) (s : List Char) : Prop := ∃ p, p ++ s = t ∧ size p = i

theorem At.start (t : List Char) : At t 0 t := ⟨[], rfl, rfl⟩

theorem At.append (h : At t i (u ++ s)) : At t (i + size u) s := by
  obtain ⟨p, rfl, rfl⟩ := h
  exact ⟨p ++ u, List.append_assoc .., size_append ..⟩

theorem At.cons (h : At t i (c :: s)) : At t (i + (utf8Char c).length) s := by
  obtain ⟨p, rfl, rfl⟩ := h
  exact ⟨p ++ [c], List.append_cons .. |>.symm, by simp⟩

theorem At.ascii (h : At t i (c :: s)) (hc : c.toNat < 0x80) : At t (i + 1) s := by
  have hcons := h.cons
  rwa [utf8Char_ascii hc] at hcons

theorem At.size_eq (h : At t i s) : size t = i + size s := by
  obtain ⟨p, rfl, rfl⟩ := h
  exact size_append p s

theorem At.lt (h : At t i (c :: s)) : i < size t := by
  have hsize := h.size_eq
  have hpos := utf8Char_length_pos c
  rw [size_cons] at hsize
  omega

theorem At.drop_utf8 (h : At t i s) : (utf8 t).drop i = utf8 s := by
  obtain ⟨p, rfl, rfl⟩ := h
  rw [size, utf8, utf8, List.flatMap_append, List.drop_left]
  rfl

theorem byte?_eq_head? (t : List Char) (i : Nat) : byte? t i = ((utf8 t).drop i).head? := by
  rw [byte?, List.head?_drop]

theorem At.byte?_first {bs : List Nat} (h : At t i (c :: s)) (hbytes : utf8Char c = b :: bs) : byte? t i = some b := by
  rw [byte?_eq_head?, h.drop_utf8, utf8, List.flatMap_cons, hbytes]
  rfl

theorem At.byte?_ascii (h : At t i (c :: s)) (hc : c.toNat < 0x80) : byte? t i = some c.toNat :=
  h.byte?_first (utf8Char_ascii hc)

theorem At.exists_byte? (h : At t i (c :: s)) : ∃ b ∈ utf8Char c, byte? t i = some b := by
  obtain ⟨b, bs, hbytes, -⟩ := exists_utf8Char c
  exact ⟨b, by rw [hbytes]; exact List.mem_cons_self, h.byte?_first hbytes⟩

/-- A byte of an ASCII character is that character. -/
theorem At.byte?_eq_iff (h : At t i s) (hd : d.toNat < 0x80) : byte? t i = some d.toNat ↔ s.head? = some d := by
  cases s with
  | nil =>
    rw [byte?_eq_head?, h.drop_utf8]
    exact ⟨nofun, nofun⟩
  | cons c s =>
    rw [List.head?_cons, Option.some_inj]
    constructor
    · intro hbyte
      obtain ⟨b, hb, heq⟩ := h.exists_byte?
      rw [heq, Option.some_inj] at hbyte
      exact Decidable.byContradiction fun hcd => ne_of_mem_utf8Char hb hd hcd hbyte
    · rintro rfl
      exact h.byte?_ascii hd

theorem lt_of_byte? (h : byte? t i = some b) : i < size t := List.getElem?_eq_some_iff.1 h |>.1

theorem byte_eq_pure_iff : byte t i = pure b ↔ byte? t i = some b := by
  unfold byte
  cases byte? t i with
  | none => exact ⟨fun h => absurd h (Scan.throw_ne_pure _ _), nofun⟩
  | some b' => exact Scan.pure_inj.trans (Option.some_inj).symm

theorem minus_add (i k : Nat) : minus (i + k) k = pure i := by
  rw [minus, if_pos (Nat.le_add_left k i), Nat.add_sub_cancel]

/-! ### Slices -/

theorem upTo?_eq_some : upTo? s i = some p ↔ p <+: s ∧ size p = i := by
  fun_induction upTo? s i generalizing p with
  | case1 s =>
    rw [Option.some_inj]
    constructor
    · rintro rfl
      exact ⟨List.nil_prefix, rfl⟩
    · rintro ⟨-, hsize⟩
      exact (size_eq_zero_iff.1 hsize).symm
  | case2 n =>
    refine ⟨nofun, fun ⟨hstart, hsize⟩ => ?_⟩
    rw [List.prefix_nil.1 hstart] at hsize
    cases hsize
  | case3 c s n hlt =>
    refine ⟨nofun, fun ⟨hstart, hsize⟩ => ?_⟩
    cases p with
    | nil => cases hsize
    | cons d p =>
      obtain ⟨rfl, -⟩ := List.cons_prefix_cons.1 hstart
      rw [size_cons] at hsize
      omega
  | case4 c s n hle ih =>
    rw [Option.map_eq_some_iff]
    constructor
    · rintro ⟨q, hq, rfl⟩
      obtain ⟨hstart, hsize⟩ := ih.1 hq
      exact ⟨List.cons_prefix_cons.2 ⟨rfl, hstart⟩, by rw [size_cons]; omega⟩
    · rintro ⟨hstart, hsize⟩
      cases p with
      | nil => cases hsize
      | cons d p =>
        obtain ⟨rfl, hp⟩ := List.cons_prefix_cons.1 hstart
        rw [size_cons] at hsize
        exact ⟨p, ih.2 ⟨hp, by omega⟩, rfl⟩

/-- Of two beginnings of a text the one with fewer bytes is a beginning of the other. -/
theorem prefix_of_size_le (hp : p <+: s) (hq : q <+: s) (hle : size p ≤ size q) : p <+: q := by
  obtain h | ⟨z, rfl⟩ := List.prefix_or_prefix_of_prefix hp hq
  · exact h
  · rw [size_append] at hle
    obtain rfl := size_eq_zero_iff.1 (show size z = 0 by omega)
    simp

theorem slice_eq_pure_iff :
    slice s i j = pure u ↔ ∃ p r, s = p ++ (u ++ r) ∧ size p = i ∧ size (p ++ u) = j := by
  constructor
  · intro h
    unfold slice at h
    split at h
    · next p q hp hq =>
      split at h
      · next hle =>
        rw [Scan.pure_inj] at h
        obtain ⟨⟨x, hx⟩, rfl⟩ := upTo?_eq_some.1 hp
        obtain ⟨⟨y, hy⟩, rfl⟩ := upTo?_eq_some.1 hq
        obtain ⟨z, rfl⟩ := prefix_of_size_le ⟨x, hx⟩ ⟨y, hy⟩ hle
        rw [List.drop_left] at h
        subst h
        exact ⟨p, y, by rw [← hy, List.append_assoc], rfl, rfl⟩
      · exact absurd h (Scan.throw_ne_pure _ _)
    · exact absurd h (Scan.throw_ne_pure _ _)
  · rintro ⟨p, r, rfl, rfl, rfl⟩
    have hp : upTo? (p ++ (u ++ r)) (size p) = some p := upTo?_eq_some.2 ⟨List.prefix_append .., rfl⟩
    have hq : upTo? (p ++ (u ++ r)) (size (p ++ u)) = some (p ++ u) :=
      upTo?_eq_some.2 ⟨⟨r, List.append_assoc ..⟩, rfl⟩
    rw [slice, hp, hq, size_append]
    dsimp only
    rw [if_pos (Nat.le_add_right ..), List.drop_left]

theorem At.slice (h : At t i (u ++ s)) : slice t i (i + size u) = pure u := by
  obtain ⟨p, rfl, rfl⟩ := h
  exact slice_eq_pure_iff.2 ⟨p, s, rfl, rfl, size_append ..⟩

theorem At.slice_end (h : At t i s) : Text.slice t i (size t) = pure s := by
  rw [h.size_eq]
  exact (show At t i (s ++ []) by rwa [List.append_nil]).slice

/-- A slice to the end of a text is what stands there. -/
theorem at_of_slice_end (h : Text.slice t i (size t) = pure s) : At t i s := by
  obtain ⟨p, r, rfl, rfl, hsize⟩ := slice_eq_pure_iff.1 h
  simp only [size_append] at hsize
  have hr : r = [] := size_eq_zero_iff.1 (by omega)
  exact ⟨p, by rw [hr, List.append_nil], rfl⟩

theorem truncate_prefix (s t : List Char) : truncate (s ++ t) (size s) = pure s := by
  have hslice := (At.start (s ++ t)).slice
  rw [Nat.zero_add] at hslice
  rw [truncate, if_pos (by rw [size_append]; omega), hslice]

/-! ### Boundaries -/

/-- The text ends at a byte offset, or a byte stands there that continues no character. -/
def IsBoundary (s : List Char) (i : Nat) : Prop := i = size s ∨ ∃ b, byte? s i = some b ∧ isTail b = false

theorem byte?_cons (c : Char) (s : List Char) (i : Nat) :
    byte? (c :: s) i = if i < (utf8Char c).length then (utf8Char c)[i]? else byte? s (i - (utf8Char c).length) := by
  have hutf8 : utf8 (c :: s) = utf8Char c ++ utf8 s := List.flatMap_cons
  rw [byte?, hutf8, List.getElem?_append]
  rfl

/-- The boundaries of a text are the sizes of its beginnings. -/
theorem isBoundary_iff : IsBoundary s i ↔ ∃ p, p <+: s ∧ size p = i := by
  constructor
  · rintro (rfl | ⟨b, hb, htail⟩)
    · exact ⟨s, List.prefix_rfl, rfl⟩
    · induction s generalizing i with
      | nil => cases hb
      | cons c s ih =>
        rw [byte?_cons] at hb
        split at hb
        · next hlt =>
          -- of the bytes of a character only the first one continues none
          cases i with
          | zero => exact ⟨[], List.nil_prefix, rfl⟩
          | succ i =>
            obtain ⟨lead, bs, hbytes, -, hbs⟩ := exists_utf8Char c
            rw [hbytes, List.getElem?_cons_succ] at hb
            rw [hbs b (List.mem_of_getElem? hb)] at htail
            contradiction
        · next hle =>
          obtain ⟨p, hp, hsize⟩ := ih hb
          exact ⟨c :: p, List.cons_prefix_cons.2 ⟨rfl, hp⟩, by rw [size_cons, hsize]; omega⟩
  · rintro ⟨p, ⟨r, rfl⟩, rfl⟩
    cases r with
    | nil => exact .inl (by rw [List.append_nil])
    | cons c r =>
      obtain ⟨b, bs, hbytes, htail, -⟩ := exists_utf8Char c
      exact .inr ⟨b, (show At (p ++ c :: r) (size p) (c :: r) from ⟨p, rfl, rfl⟩).byte?_first hbytes, htail⟩

/-- A slice is taken exactly if its bounds are in order, within the text and between characters. -/
theorem exists_slice_iff :
    (∃ u, slice s i j = pure u) ↔ i ≤ j ∧ j ≤ size s ∧ IsBoundary s i ∧ IsBoundary s j := by
  simp only [isBoundary_iff, slice_eq_pure_iff]
  constructor
  · rintro ⟨u, p, r, rfl, rfl, rfl⟩
    simp only [size_append]
    exact ⟨by omega, by omega, ⟨p, List.prefix_append .., rfl⟩,
      ⟨p ++ u, ⟨r, List.append_assoc ..⟩, size_append ..⟩⟩
  · rintro ⟨hle, -, ⟨p, hp, rfl⟩, ⟨q, hq, rfl⟩⟩
    obtain ⟨u, rfl⟩ := prefix_of_size_le hp hq hle
    obtain ⟨r, rfl⟩ := hq
    exact ⟨u, p, r, List.append_assoc .., rfl, rfl⟩

/-! ### Searches -/

/-- Of two beginnings of a text the one with more bytes has more characters. -/
theorem size_lt_size_iff (hp : p <+: t) (hq : q <+: t) : size p < size q ↔ p.length < q.length := by
  obtain ⟨z, rfl⟩ | ⟨z, rfl⟩ := List.prefix_or_prefix_of_prefix hp hq
  · have hz := size_eq_zero_iff (s := z)
    rw [← List.length_eq_zero_iff] at hz
    rw [size_append, List.length_append]
    omega
  · rw [size_append, List.length_append]
    omega

/-- The last character with a property, and what stands before and behind it. -/
theorem lastOffset?_cases (f : Char → Bool) (s : List Char) :
    (lastOffset? f s = none ∧ s.reverse.dropWhile (!f ·) = []) ∨
      ∃ p c r, s = p ++ c :: r ∧ f c = true ∧ lastOffset? f s = some (size p) ∧
        s.reverse.dropWhile (!f ·) = c :: p.reverse := by
  unfold lastOffset?
  cases hlast : s.reverse.dropWhile (!f ·) with
  | nil =>
    refine .inl ⟨if_neg fun hany => ?_, rfl⟩
    obtain ⟨c, hc, hf⟩ := List.any_eq_true.1 hany
    have hnot := List.dropWhile_eq_nil_iff.1 hlast c (List.mem_reverse.2 hc)
    simp [hf] at hnot
  | cons c u =>
    have htext := congrArg List.reverse (List.takeWhile_append_dropWhile (p := (!f ·)) (l := s.reverse))
    rw [hlast, List.reverse_append, List.reverse_cons, List.append_assoc, List.reverse_reverse,
      List.singleton_append] at htext
    have hf : f c = true := by
      have hhead := List.head?_dropWhile_not (!f ·) s.reverse
      simpa [hlast] using hhead
    refine .inr ⟨u.reverse, c, _, htext.symm, hf, if_pos ?_, by rw [List.reverse_reverse]⟩
    rw [← htext, List.any_append, List.any_cons, hf]
    simp

/-! ### Loops -/

namespace Loop
variable [Nonempty α] {l : Loop σ α} {st st' : σ} {result : α}

theorem run_eq (l : Loop σ α) (i : Nat) (st : σ) : l.run i st =
    if i < size l.text then do
      match ← l.round i st with
      | .next i st => l.run i st
      | .done result => pure result
    else pure (l.last i st) := by
  rw [run, repeatM_eq_of_monadTail, repeatM.body]
  dsimp only
  split
  · rw [bind_assoc]
    congr 1
    funext round
    cases round <;> exact pure_bind _ _
  · exact pure_bind _ _

theorem run_end (h : size l.text ≤ i) (st : σ) : l.run i st = pure (l.last i st) := by
  rw [run_eq, if_neg (Nat.not_lt.2 h)]

theorem run_next (hi : i < size l.text) (h : l.round i st = pure (.next j st')) : l.run i st = l.run j st' := by
  rw [run_eq, if_pos hi, h, pure_bind]

theorem run_done (hi : i < size l.text) (h : l.round i st = pure (.done result)) : l.run i st = pure result := by
  rw [run_eq, if_pos hi, h, pure_bind]

/-- A round at this byte goes on to the next one and does nothing else. -/
def Ignores (l : Loop σ α) (b : Nat) : Prop :=
  ∀ i st, byte? l.text i = some b → l.round i st = pure (.next (i + 1) st)

theorem run_ignored {bs rest : List Nat} (hbs : ∀ b ∈ bs, l.Ignores b) (h : (utf8 l.text).drop i = bs ++ rest) :
    l.run i st = l.run (i + bs.length) st := by
  induction bs generalizing i with
  | nil => rfl
  | cons b bs ih =>
    rw [List.forall_mem_cons] at hbs
    have hbyte : byte? l.text i = some b := by rw [byte?_eq_head?, h]; rfl
    have hdrop : (utf8 l.text).drop (i + 1) = bs ++ rest := by rw [← List.tail_drop, h]; rfl
    rw [run_next (lt_of_byte? hbyte) (hbs.1 i st hbyte), ih hbs.2 hdrop, List.length_cons]
    congr 1
    omega

/-- A character whose bytes mean nothing is passed over. -/
theorem run_char (h : At l.text i (c :: s)) (hc : ∀ b ∈ utf8Char c, l.Ignores b) :
    l.run i st = l.run (i + (utf8Char c).length) st :=
  run_ignored hc h.drop_utf8

/-- The other bytes of a character are passed over too when its first one was skipped. -/
theorem run_inside (h : At l.text i (c :: s)) (hhigh : ∀ b, 0x80 ≤ b → l.Ignores b) :
    l.run (i + 1) st = l.run (i + (utf8Char c).length) st := by
  have hdrop : (utf8 l.text).drop (i + 1) = (utf8Char c ++ utf8 s).tail := by rw [← List.tail_drop, h.drop_utf8]; rfl
  obtain ⟨b, bs, hbytes, -, hbs⟩ := exists_utf8Char c
  rw [hbytes] at hdrop ⊢
  rw [run_ignored (fun x hx => hhigh x (isTail_iff.1 (hbs x hx)).1) hdrop, List.length_cons]
  congr 1
  omega

omit [Nonempty α] in
/-- What every round has if its next one has it holds of all rounds of a loop that advances. -/
theorem Advances.induct (hadv : l.Advances) {motive : Nat → σ → Prop}
    (h : ∀ i st, (∀ j st', i < size l.text → l.round i st = pure (.next j st') → motive j st') → motive i st)
    (i : Nat) (st : σ) : motive i st := by
  induction hmeasure : size l.text - i using Nat.strongRecOn generalizing i st with
  | ind n ih =>
    refine h i st fun j st' hi hround => ?_
    have hlt := (hadv i st j st' hi hround).1
    exact ih _ (by omega) j st' rfl

theorem Ends.run_eq (h : l.Ends i st result) : l.run i st = pure result := by
  induction h with
  | last hi => exact run_end hi _
  | done hi hround => exact run_done hi hround
  | next hi hround _ ih => rw [run_next hi hround, ih]

/-- A loop that advances has a result only if its rounds come to an end with it. -/
theorem Advances.run_eq_pure_iff (hadv : l.Advances) : l.run i st = pure result ↔ l.Ends i st result := by
  refine ⟨fun h => ?_, Ends.run_eq⟩
  induction i, st using hadv.induct with
  | h i st ih =>
    rw [Loop.run_eq] at h
    split at h
    · next hi =>
      obtain ⟨round, hround, h⟩ := Scan.bind_eq_pure.1 h
      cases round with
      | next j st' => exact .next hi hround (ih j st' hi hround h)
      | done a =>
        rw [Scan.pure_inj.1 h] at hround
        exact .done hi hround
    · next hi =>
      rw [← Scan.pure_inj.1 h]
      exact .last (Nat.not_lt.1 hi)

/-- A relation between the offset and the result holds of a run if it holds where the loop ends and each round takes it
over from the next one. -/
theorem Advances.of_run (hadv : l.Advances) {Q : Nat → α → Prop}
    (hnext : ∀ i st j st' result, i < size l.text → l.round i st = pure (.next j st') → Q j result → Q i result)
    (hdone : ∀ i st result, i < size l.text → l.round i st = pure (.done result) → Q i result)
    (hlast : ∀ i st, size l.text ≤ i → Q i (l.last i st)) (h : l.run i st = pure result) : Q i result := by
  rw [hadv.run_eq_pure_iff] at h
  induction h with
  | last hi => exact hlast _ _ hi
  | done hi hround => exact hdone _ _ _ hi hround
  | next hi hround _ ih => exact hnext _ _ _ _ _ hi hround ih

end Loop
end MockRedirect.Text
