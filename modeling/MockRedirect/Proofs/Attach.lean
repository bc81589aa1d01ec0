import MockRedirect.Proofs.Scanned
/-! Annotations are attached to the keys before them. Keys are looked for without regard to string values and comments;
as long as no quote in these can be taken for the end of a key, each annotation goes to the last key before it. -/
namespace MockRedirect
open Text

namespace Template

variable {s : List Char}

/-! ### What can be taken for the end of a key -/

/-- A colon stands behind the blanks at the start. -/
def OpensWithColon (s : List Char) : Prop := (s.dropWhile isBlank).head? = some ':'

instance (s : List Char) : Decidable (OpensWithColon s) := inferInstanceAs (Decidable (_ = _))

theorem opensWithColon_cons {c : Char} (hc : isBlank c = true) : OpensWithColon (c :: s) ↔ OpensWithColon s := by
  rw [OpensWithColon, List.dropWhile_cons_of_pos hc, OpensWithColon]

theorem opensWithColon_cons_of_not {c : Char} (hc : isBlank c = false) : OpensWithColon (c :: s) ↔ c = ':' := by
  rw [OpensWithColon, List.dropWhile_cons_of_neg (by simp [hc]), List.head?_cons, Option.some_inj]

/-- What stands behind a character that is neither blank nor a colon does not matter. -/
theorem opensWithColon_append_cons {c : Char} (hc : isBlank c = false) (hcolon : c ≠ ':') (u : List Char) :
    OpensWithColon (s ++ c :: u) ↔ OpensWithColon s := by
  induction s with
  | nil => exact (opensWithColon_cons_of_not hc).trans ⟨fun h => absurd h hcolon, nofun⟩
  | cons d s ih =>
    cases hd : isBlank d with
    | true => rw [List.cons_append, opensWithColon_cons hd, opensWithColon_cons hd, ih]
    | false => rw [List.cons_append, opensWithColon_cons_of_not hd, opensWithColon_cons_of_not hd]

theorem takeWhile_blank {g : List Char} (hg : ∀ c ∈ g, isBlank c = true) (r : List Char) :
    (g ++ ':' :: r).takeWhile isBlank = g := by
  rw [List.takeWhile_append_of_pos hg, List.takeWhile_cons_of_neg (by decide), List.append_nil]

theorem opensWithColon_iff : OpensWithColon s ↔ ∃ g r, s = g ++ ':' :: r ∧ ∀ c ∈ g, isBlank c = true := by
  constructor
  · intro h
    obtain ⟨r, hr⟩ := List.head?_eq_some_iff.1 h
    refine ⟨s.takeWhile isBlank, r, ?_, fun c hc => List.mem_takeWhile_imp hc⟩
    rw [← hr, List.takeWhile_append_dropWhile]
  · rintro ⟨g, r, rfl, hg⟩
    rw [OpensWithColon, List.dropWhile_append_of_pos hg]
    rfl

end Template

namespace Annotation
open Template Document

variable {s : List Char}

/-! ### Keys -/

theorem key?_eq (s : List Char) : key? s = (keyLength? s).bind fun n =>
    if OpensWithColon (s.drop (n + 1)) then some (s.take n, n + 2 + ((s.drop (n + 1)).takeWhile isBlank).length)
    else none := by
  have hblanks (t : List Char) : t.drop (t.takeWhile isBlank).length = t.dropWhile isBlank := by
    have h : (t.takeWhile isBlank ++ t.dropWhile isBlank).drop (t.takeWhile isBlank).length = _ := List.drop_left
    rwa [List.takeWhile_append_dropWhile] at h
  have hdrop (n : Nat) : s.drop (n + 1 + ((s.drop (n + 1)).takeWhile isBlank).length) =
      (s.drop (n + 1)).dropWhile isBlank := by rw [← hblanks, List.drop_drop]
  simp only [key?, hdrop]
  rfl

theorem key?_quote (s : List Char) : key? ('"' :: s) =
    if OpensWithColon s then some ([], 2 + (s.takeWhile isBlank).length) else none := by
  have hlength : keyLength? ('"' :: s) = some 0 := rfl
  rw [key?_eq, hlength, Option.bind_some]
  rfl

theorem key?_escape {c : Char} (hc : c ≠ '\n') (s : List Char) :
    key? ('\\' :: c :: s) = (key? s).map fun (k, n) => ('\\' :: c :: k, n + 2) := by
  have hlength : keyLength? ('\\' :: c :: s) = (keyLength? s).map (· + 2) := by rw [keyLength?, if_neg hc]
  rw [key?_eq, key?_eq, hlength]
  cases keyLength? s with
  | none => rfl
  | some n =>
    simp only [Option.map_some, Option.bind_some, List.drop_succ_cons, List.take_succ_cons]
    split
    · rw [Option.map_some]
      congr 2
      omega
    · rfl

theorem key?_char {c : Char} (hquote : c ≠ '"') (hslash : c ≠ '\\') (s : List Char) :
    key? (c :: s) = (key? s).map fun (k, n) => (c :: k, n + 1) := by
  have hlength : keyLength? (c :: s) = (keyLength? s).map (· + 1) := by
    rw [keyLength?, if_neg hquote]
    · rintro rfl; contradiction
    · rintro _ _ rfl; contradiction
  rw [key?_eq, key?_eq, hlength]
  cases keyLength? s with
  | none => rfl
  | some n =>
    simp only [Option.map_some, Option.bind_some, List.drop_succ_cons, List.take_succ_cons]
    split
    · rw [Option.map_some]
      congr 2
      omega
    · rfl

theorem key?_escape_eq_none (c : Char) (h : key? s = none) : key? ('\\' :: c :: s) = none := by
  by_cases hc : c = '\n'
  · subst hc
    rfl
  · rw [key?_escape hc, h, Option.map_none]

theorem key?_char_eq_none {c : Char} (hquote : c ≠ '"') (hslash : c ≠ '\\') (h : key? s = none) :
    key? (c :: s) = none := by rw [key?_char hquote hslash, h, Option.map_none]

/-- A literal with its colon is a key. -/
theorem key?_key {k g r : List Char} (hk : IsBody k) (hline : '\n' ∉ k) (hg : ∀ c ∈ g, isBlank c = true) :
    key? (k ++ '"' :: (g ++ ':' :: r)) = some (k, (k ++ '"' :: (g ++ [':'])).length) := by
  induction hk with
  | nil =>
    rw [List.nil_append, key?_quote, if_pos (opensWithColon_iff.2 ⟨g, r, rfl, hg⟩), takeWhile_blank hg]
    simp
    omega
  | @escape c k _ ih =>
    simp only [List.mem_cons, not_or] at hline
    rw [List.cons_append, List.cons_append, key?_escape (Ne.symm hline.2.1), ih hline.2.2, Option.map_some]
    rfl
  | char hquote hslash _ ih =>
    rw [List.mem_cons, not_or] at hline
    rw [List.cons_append, key?_char hquote hslash, ih hline.2, Option.map_some]
    rfl

/-- A literal without a colon is none. -/
theorem key?_value {b : List Char} (hb : IsBody b) (hs : ¬OpensWithColon s) : key? (b ++ '"' :: s) = none := by
  induction hb with
  | nil => rw [List.nil_append, key?_quote, if_neg hs]
  | escape c _ ih => exact key?_escape_eq_none c ih
  | char hquote hslash _ ih => exact key?_char_eq_none hquote hslash ih

/-- No key ends in a comment in which no quote can close it. -/
theorem key?_inner {inner : List Char} (h : ∀ p q, inner = p ++ '"' :: q → ¬OpensWithColon q) (hs : key? s = none) :
    key? (inner ++ '*' :: '/' :: s) = none := by
  have hend : key? ('/' :: s) = none := key?_char_eq_none (by decide) (by decide) hs
  have htail (front : List Char) {t : List Char} (ht : ∀ p q, front ++ t = p ++ '"' :: q → ¬OpensWithColon q) :
      ∀ p q, t = p ++ '"' :: q → ¬OpensWithColon q :=
    fun p q hpq => ht (front ++ p) q (by rw [hpq, List.append_assoc])
  induction inner using keyLength?.induct with
  | case1 => exact key?_char_eq_none (by decide) (by decide) hend
  | case2 => exact key?_escape_eq_none '*' hend
  | case3 => rfl
  | case4 c t _ ih => exact key?_escape_eq_none c (ih (htail ['\\', c] h))
  | case5 t =>
    have ht : ¬OpensWithColon (t ++ '*' :: '/' :: s) :=
      fun hopens => h [] t rfl ((opensWithColon_append_cons (by decide) (by decide) _).1 hopens)
    rw [List.cons_append, key?_quote, if_neg ht]
  | case6 c t hone hescape hquote ih =>
    have hslash : c ≠ '\\' := ne_backslash hone hescape
    exact key?_char_eq_none hquote hslash (ih (htail [c] h))

theorem mem_getLast?_cons {c d : Char} {t : List Char} (h : d ∈ t.getLast?) : d ∈ (c :: t).getLast? := by
  rw [List.getLast?_cons, Option.mem_def.1 h]
  rfl

/-- A quote that no backslash stands before ends every key that reaches up to it, if a colon does not follow. -/
theorem length_le_of_key? {u r k : List Char} {n : Nat} (hu : ∀ c ∈ u.getLast?, c ≠ '\\') (hr : ¬OpensWithColon r)
    (h : key? (u ++ '"' :: r) = some (k, n)) : n ≤ u.length := by
  induction u using keyLength?.induct generalizing k n with
  | case1 => rw [List.nil_append, key?_quote, if_neg hr] at h; cases h
  | case2 => exact absurd rfl (hu '\\' rfl)
  | case3 => cases h
  | case4 c t hc ih =>
    rw [List.cons_append, List.cons_append, key?_escape hc] at h
    obtain ⟨⟨k', n'⟩, hk', hn⟩ := Option.map_eq_some_iff.1 h
    obtain ⟨-, rfl⟩ := Prod.mk.inj hn
    have hle := ih (fun d hd => hu d (mem_getLast?_cons (mem_getLast?_cons hd))) hk'
    simpa using hle
  | case5 t =>
    rw [List.cons_append, key?_quote] at h
    split at h
    · next hopens =>
      rw [opensWithColon_append_cons (by decide) (by decide), opensWithColon_iff] at hopens
      obtain ⟨g, r', rfl, hg⟩ := hopens
      obtain ⟨-, rfl⟩ := Prod.mk.inj (Option.some.inj h)
      rw [List.append_assoc, List.cons_append, takeWhile_blank hg]
      simp
      omega
    · cases h
  | case6 c t hone hescape hquote ih =>
    have hslash : c ≠ '\\' := ne_backslash hone hescape
    rw [List.cons_append, key?_char hquote hslash] at h
    obtain ⟨⟨k', n'⟩, hk', hn⟩ := Option.map_eq_some_iff.1 h
    obtain ⟨-, rfl⟩ := Prod.mk.inj hn
    have hle := ih (fun d hd => hu d (mem_getLast?_cons hd)) hk'
    simpa using hle

/-! ### The last key -/

theorem go_char {c : Char} (hc : c ≠ '"') (s : List Char) (last : Option String) :
    lastKey?.go (c :: s) 0 last = lastKey?.go s 0 last := by
  rw [lastKey?.go, if_neg hc]

theorem go_quote_of_none (h : key? s = none) (last : Option String) :
    lastKey?.go ('"' :: s) 0 last = lastKey?.go s 0 last := by
  rw [lastKey?.go, if_pos rfl, h]

theorem go_quote_of_some {k : List Char} {n : Nat} (h : key? s = some (k, n)) (last : Option String) :
    lastKey?.go ('"' :: s) 0 last = lastKey?.go s n (some (String.ofList k)) := by
  rw [lastKey?.go, if_pos rfl, h]

theorem go_skip (s t : List Char) (last : Option String) :
    lastKey?.go (s ++ t) s.length last = lastKey?.go t 0 last := by
  induction s with
  | nil => rfl
  | cons c s ih => exact ih

theorem go_unquoted {s : List Char} (h : '"' ∉ s) (t : List Char) (last : Option String) :
    lastKey?.go (s ++ t) 0 last = lastKey?.go t 0 last := by
  induction s with
  | nil => rfl
  | cons c s ih =>
    rw [List.mem_cons, not_or] at h
    rw [List.cons_append, go_char (Ne.symm h.1), ih h.2]

/-- The scan comes to a quote that no backslash stands before and no colon follows. -/
theorem exists_go_quote {u r : List Char} (hu : ∀ c ∈ u.getLast?, c ≠ '\\') (hr : ¬OpensWithColon r) {n : Nat}
    (hn : n ≤ u.length) (last : Option String) :
    ∃ last', lastKey?.go (u ++ '"' :: r) n last = lastKey?.go ('"' :: r) 0 last' := by
  induction u generalizing n last with
  | nil =>
    obtain rfl := Nat.le_zero.1 hn
    exact ⟨last, rfl⟩
  | cons c u ih =>
    have ih {n : Nat} (hn : n ≤ u.length) (last : Option String) := ih (fun d hd => hu d (mem_getLast?_cons hd)) hn last
    cases n with
    | succ n => exact ih (Nat.le_of_succ_le_succ hn) last
    | zero =>
      by_cases hc : c = '"'
      · subst hc
        cases hkey : key? (u ++ '"' :: r) with
        | none =>
          rw [List.cons_append, go_quote_of_none hkey]
          exact ih (Nat.zero_le _) last
        | some p =>
          rw [List.cons_append, go_quote_of_some hkey]
          exact ih (length_le_of_key? (fun d hd => hu d (mem_getLast?_cons hd)) hr hkey) _
      · rw [List.cons_append, go_char hc]
        exact ih (Nat.zero_le _) last

/-- The scan for keys passes over a literal that is none. -/
theorem go_value {b : List Char} (hb : IsBody b) (hs : ¬OpensWithColon s) (hkey : key? s = none)
    (last : Option String) : lastKey?.go (b ++ '"' :: s) 0 last = lastKey?.go s 0 last := by
  induction hb with
  | nil => exact go_quote_of_none hkey last
  | @escape c b hb ih =>
    rw [List.cons_append, List.cons_append, go_char (by decide)]
    by_cases hc : c = '"'
    · subst hc
      rw [go_quote_of_none (key?_value hb hs), ih]
    · rw [go_char hc, ih]
  | char hquote _ _ ih => rw [List.cons_append, go_char hquote, ih]

/-- The scan for keys passes over a comment in which none begins. -/
theorem go_inner {inner : List Char} (h : ∀ p q, inner = p ++ '"' :: q → key? (q ++ '*' :: '/' :: s) = none)
    (last : Option String) : lastKey?.go (inner ++ '*' :: '/' :: s) 0 last = lastKey?.go s 0 last := by
  induction inner with
  | nil => rw [List.nil_append, go_char (by decide), go_char (by decide)]
  | cons c inner ih =>
    have ih := ih fun p q hpq => h (c :: p) q (congrArg (c :: ·) hpq)
    by_cases hc : c = '"'
    · subst hc
      rw [List.cons_append, go_quote_of_none (h [] inner rfl), ih]
    · rw [List.cons_append, go_char hc, ih]

end Annotation

namespace Template
open Document Annotation

variable {after ts us : List Token} {s : List Char} {t : Token}

/-! ### Attaching -/

/-- No quote in these tokens can be taken for the end of a key, where `quoted` says whether a quote is before them. -/
def Quiet : Bool → List Token → Prop
  | _, [] => True
  | quoted, .comment inner :: ts =>
    (∀ p q, inner = p ++ '"' :: q → OpensWithColon q → quoted = false ∧ '"' ∉ p) ∧
      Quiet (quoted || inner.contains '"') ts
  | _, .key _ :: _ => False
  | quoted, .value body :: ts => (quoted = true → ¬OpensWithColon body) ∧ Quiet true ts
  | quoted, .mark _ :: ts => Quiet quoted ts

/-- No quote is left over that could begin a key: there is none, or none behind the colon of the last key, which is
found whatever is before it if a colon does not stand at its start. -/
inductive Clear : List Token → Prop
  | unquoted {ts : List Token} (h : ∀ t ∈ ts, '"' ∉ t.text) : Clear ts
  | keyed {front mid : List Token} {k : List Char} (hline : '\n' ∉ k) (hopens : OpensWithColon k → Clear front)
    (h : ∀ t ∈ mid, '"' ∉ t.text) : Clear (front ++ .key k :: .mark ':' :: mid)

/-- The last key, if there is one, is found: it holds no line break, a colon stands right behind it, no quote before it
can be taken for the start of a key that ends where it starts, and nothing that follows for the end of one. -/
inductive Plain : List Token → Prop
  | keyless {ts : List Token} (h : Quiet false ts) : Plain ts
  | keyed {front mid : List Token} {k : List Char} (hline : '\n' ∉ k) (hopens : OpensWithColon k → Clear front)
    (h : Quiet false mid) : Plain (front ++ .key k :: .mark ':' :: mid)

theorem colonNext_of_opensWithColon (h : Scans after s ts) (hs : OpensWithColon s) : ColonNext (ts ++ after) := by
  induction h with
  | nil => cases hs
  | blank hc _ ih => exact ih ((opensWithColon_cons (isBlank_of_isAsciiBlank (Json.isAsciiBlank_of_isSpace hc))).1 hs)
  | @token t s ts ht _ _ =>
    cases t with
    | comment => exact absurd ((opensWithColon_cons_of_not (by decide)).1 hs) (by decide)
    | key => exact absurd ((opensWithColon_cons_of_not (by decide)).1 hs) (by decide)
    | value => exact absurd ((opensWithColon_cons_of_not (by decide)).1 hs) (by decide)
    | mark => exact (opensWithColon_cons_of_not ht.1).1 hs

/-- No backslash stands at the end of a token. -/
theorem Scans.not_backslash (h : Scans after s ts) : ∀ c ∈ s.getLast?, c ≠ '\\' := by
  induction h with
  | nil => nofun
  | @blank c s _ hc _ ih =>
    intro d hd
    cases s with
    | nil =>
      cases hd
      rintro rfl
      exact absurd hc (by decide)
    | cons => exact ih d (by rwa [List.getLast?_cons_cons] at hd)
  | @token t s ts ht _ ih =>
    intro d hd
    rw [List.getLast?_append] at hd
    cases hs : s.getLast? with
    | some e =>
      rw [hs, Option.some_or] at hd
      exact ih d (hs.trans hd)
    | none =>
      rw [hs, Option.none_or] at hd
      cases t with
      | mark c =>
        cases hd
        rintro rfl
        exact ht.2 (by simp)
      | comment =>
        obtain rfl : '/' = d := by simpa [Token.text, List.getLast?_cons] using hd
        decide
      | key | value =>
        obtain rfl : '"' = d := by simpa [Token.text, List.getLast?_cons] using hd
        decide

/-- A key that begins before quiet tokens does not end in them. -/
theorem key?_of_quiet (h : Scans after s ts) (hq : Quiet true ts) : key? s = none := by
  induction h with
  | nil => rfl
  | blank hc _ ih => refine key?_char_eq_none ?_ ?_ (ih hq) <;> rintro rfl <;> contradiction
  | @token t s ts ht _ ih =>
    cases t with
    | comment inner =>
      have hinner := key?_inner (fun p q hpq hopens => nomatch (hq.1 p q hpq hopens).1) (ih hq.2)
      have hall := key?_char_eq_none (c := '/') (by decide) (by decide)
        (key?_char_eq_none (c := '*') (by decide) (by decide) hinner)
      simpa [Token.text] using hall
    | key => exact hq.elim
    | value b =>
      have hopens : ¬OpensWithColon (b ++ ['"'] ++ s) := by
        rw [List.append_assoc, List.singleton_append, opensWithColon_append_cons (by decide) (by decide)]
        exact hq.1 rfl
      rw [Token.text, List.cons_append, key?_quote, if_neg hopens]
    | mark c =>
      have hmark := ht.2
      simp only [List.mem_cons, List.not_mem_nil, or_false, not_or] at hmark
      exact key?_char_eq_none hmark.1 hmark.2.2 (ih hq)

/-- No key is found in quiet tokens. -/
theorem go_of_quiet (h : Scans after s ts) {quoted : Bool} (hq : Quiet quoted ts) (last : Option String) :
    lastKey?.go s 0 last = last := by
  induction h generalizing quoted with
  | nil => rfl
  | blank hc _ ih => exact (go_char (by rintro rfl; contradiction) _ last).trans (ih hq)
  | @token t s ts ht hs ih =>
    cases t with
    | comment inner =>
      have hinner (p q : List Char) (hpq : inner = p ++ '"' :: q) : key? (q ++ '*' :: '/' :: s) = none := by
        refine key?_inner (fun p' q' hpq' hopens => ?_) (key?_of_quiet hs ?_)
        · have hsplit : inner = (p ++ '"' :: p') ++ '"' :: q' := by rw [hpq, hpq', List.append_assoc]; rfl
          exact (hq.1 _ q' hsplit hopens).2 (by simp)
        · have hmem : inner.contains '"' = true := by simp [hpq]
          have hquiet := hq.2
          rwa [hmem, Bool.or_true] at hquiet
      have hgo := go_inner hinner last
      rw [ih hq.2] at hgo
      rw [Token.text, List.cons_append, List.cons_append, List.append_assoc, go_char (by decide), go_char (by decide)]
      exact hgo
    | key => exact hq.elim
    | value b =>
      have hopens : ¬OpensWithColon s := fun hs' => ht.2 (colonNext_of_opensWithColon hs hs')
      have hkey := key?_of_quiet hs hq.2
      have hvalue := go_value ht.1 hopens hkey last
      rw [Token.text, List.cons_append, List.append_assoc, List.singleton_append,
        go_quote_of_none (key?_value ht.1 hopens), hvalue, ih hq.2]
    | mark c =>
      exact (go_char (by rintro rfl; exact ht.2 (by simp)) _ last).trans (ih hq)

theorem filterMap_key?_of_quiet {quoted : Bool} (h : Quiet quoted ts) : ts.filterMap Token.key? = [] := by
  induction ts generalizing quoted with
  | nil => rfl
  | cons t ts ih =>
    cases t with
    | comment => exact ih h.2
    | key => exact h.elim
    | value => exact ih h.2
    | mark =>
      have htail : Quiet quoted ts := h
      exact ih htail

theorem Scans.unquoted (h : Scans after s ts) (hts : ∀ t ∈ ts, '"' ∉ t.text) : '"' ∉ s := by
  induction h with
  | nil => exact List.not_mem_nil
  | blank hc _ ih =>
    refine List.not_mem_cons_of_ne_of_not_mem ?_ (ih hts)
    rintro rfl
    contradiction
  | token _ _ ih =>
    rw [List.forall_mem_cons] at hts
    exact fun hmem => (List.mem_append.1 hmem).elim hts.1 (ih hts.2)

/-- The scan for keys comes to what stands behind these tokens. -/
def Passed (ts : List Token) : Prop :=
  ∀ after s, Scans after s ts → ∀ r, ∃ last, lastKey?.go (s ++ r) 0 none = lastKey?.go r 0 last

/-- The scan for keys finds a key with its colon. -/
theorem exists_go_key {front mid : List Token} {k : List Char} (hline : '\n' ∉ k)
    (hopens : OpensWithColon k → Passed front) (h : Scans after s (front ++ .key k :: .mark ':' :: mid)) :
    ∃ u, Scans after u mid ∧ ∀ r, lastKey?.go (s ++ r) 0 none = lastKey?.go (u ++ r) 0 (some (String.ofList k)) := by
  obtain ⟨s₁, s₂, rfl, hfront, hk, hback⟩ := h.split
  have hback : Scans after s₂ ([] ++ .mark ':' :: mid) := hback
  obtain ⟨g, u, rfl, hg, -, hmid⟩ := hback.split
  refine ⟨u, hmid, fun r => ?_⟩
  have hblank : ∀ c ∈ g, isBlank c = true := fun c hc =>
    isBlank_of_isAsciiBlank (Json.isAsciiBlank_of_isSpace (isSpace_of_scans hg c hc))
  have hkey := key?_key (r := u ++ r) hk.1 hline hblank
  have htext : s₁ ++ (Token.text (.key k) ++ (g ++ (Token.text (.mark ':') ++ u))) ++ r =
      s₁ ++ '"' :: (k ++ '"' :: (g ++ ':' :: (u ++ r))) := by simp [Token.text]
  have hreach : ∃ last, lastKey?.go (s₁ ++ '"' :: (k ++ '"' :: (g ++ ':' :: (u ++ r)))) 0 none =
      lastKey?.go ('"' :: (k ++ '"' :: (g ++ ':' :: (u ++ r)))) 0 last := by
    by_cases hcolon : OpensWithColon k
    · exact hopens hcolon _ s₁ hfront _
    · refine exists_go_quote hfront.not_backslash ?_ (Nat.zero_le _) none
      rwa [opensWithColon_append_cons (by decide) (by decide)]
  obtain ⟨last, hgo⟩ := hreach
  have hskip := Annotation.go_skip (k ++ '"' :: (g ++ [':'])) (u ++ r) (some (String.ofList k))
  rw [List.append_assoc, List.cons_append, List.append_assoc, List.singleton_append] at hskip
  rw [htext, hgo, go_quote_of_some hkey, hskip]

theorem Clear.passed (h : Clear ts) : Passed ts := by
  induction h with
  | unquoted hts => exact fun _ _ hs r => ⟨none, go_unquoted (hs.unquoted hts) r none⟩
  | keyed hline _ hmid ih =>
    intro after s hs r
    obtain ⟨u, hu, hgo⟩ := exists_go_key hline ih hs
    exact ⟨_, (hgo r).trans (go_unquoted (hu.unquoted hmid) r _)⟩

/-- Where the last key is found, it is what the scan for keys gives. -/
theorem lastKey?_of_plain (h : Scans after s ts) (hp : Plain ts) :
    Annotation.lastKey? s = (lastKey ts).map String.ofList := by
  cases hp with
  | keyless hq =>
    rw [lastKey?, go_of_quiet h hq, lastKey, filterMap_key?_of_quiet hq]
    rfl
  | @keyed front mid k hline hopens hq =>
    obtain ⟨u, hu, hgo⟩ := exists_go_key hline (fun hcolon => (hopens hcolon).passed) h
    have hkeys : (front ++ .key k :: .mark ':' :: mid).filterMap Token.key? = front.filterMap Token.key? ++ [k] := by
      rw [List.filterMap_append]
      exact congrArg (front.filterMap Token.key? ++ k :: ·) (filterMap_key?_of_quiet hq)
    have hgo := hgo []
    rw [List.append_nil, List.append_nil, go_of_quiet hu hq] at hgo
    rw [lastKey?, hgo, lastKey, hkeys, List.getLast?_append]
    rfl

/-- Each comment of a template gives one annotation, in order. It goes to the last key before it, or to none where there
is no key, if this key is found. -/
theorem fieldAnnotations_attached {text : List Char} {d : Document} (h : annotated.Whole text d) :
    (∃ ts, Scans [] text ts) ∧ ∀ ts, Scans [] text ts →
      (fieldAnnotations text).map FieldAnnotation.annotation = (inners ts).map Annotation.parse ∧
        ∀ before inner after, ts = before ++ .comment inner :: after → Plain before →
          (fieldAnnotations text)[(inners before).length]? =
            some ⟨(lastKey before).map String.ofList, Annotation.parse inner⟩ := by
  refine ⟨exists_scans h, fun ts hts => ⟨?_, ?_⟩⟩
  · obtain ⟨cs, hcs, hinners⟩ := hts.exists_comments [] []
    rw [List.append_nil, commentsBehind_nil, List.append_nil] at hcs
    rw [fieldAnnotations, comments_eq, hcs, List.map_map, ← hinners, List.map_map]
    rfl
  · rintro before inner after rfl hp
    obtain ⟨s₁, s₂, rfl, hfront, hinner, -⟩ := hts.split
    obtain ⟨cs, hcs, hinners⟩ := hfront.exists_comments [] (Token.text (.comment inner) ++ s₂)
    have hcomment := commentsBehind_comment hinner s₁ s₂
    have htext : '/' :: '*' :: (inner ++ '*' :: '/' :: s₂) = Token.text (.comment inner) ++ s₂ := by simp [Token.text]
    rw [List.nil_append, ← htext, hcomment] at hcs
    have hlength : (inners before).length = cs.length := by rw [← hinners, List.length_map]
    rw [fieldAnnotations, comments_eq, ← htext, hcs, hlength, List.getElem?_map, List.getElem?_append_right (le_refl _),
      Nat.sub_self, List.getElem?_cons_zero, Option.map_some, ← lastKey?_of_plain hfront hp]

/-- A value that starts with a colon, and a quote in the comment. -/
theorem fieldAnnotations_attached_quote :
    (annotated.Whole "\x7b\"a\":\":\"/*\"*/\x7d".toList (.record [(['a'], .text [':'])]) ∧
      Scans [] "\x7b\"a\":\":\"/*\"*/\x7d".toList
        ([.mark '\x7b', .key ['a'], .mark ':', .value [':']] ++ .comment ['"'] :: [.mark '\x7d']) ∧
      Plain [.mark '\x7b', .key ['a'], .mark ':', .value [':']]) ∧
      (fieldAnnotations "\x7b\"a\":\":\"/*\"*/\x7d".toList)[0]? = some ⟨some "a", Annotation.parse ['"']⟩ := by
  have ha : IsBody ['a'] := .char (by decide) (by decide) .nil
  have hcolon : IsBody [':'] := .char (by decide) (by decide) .nil
  have hinner : ¬['*', '/'] <:+: ['"'] := by decide
  have hgap : annotated.gap [] := IsGap.nil
  have hwhole : annotated.Whole "\x7b\"a\":\":\"/*\"*/\x7d".toList (.record [(['a'], .text [':'])]) := by
    refine ⟨[], _, [], ?_, hgap, hgap,
      .record hgap (.member ha hgap hgap (.text hcolon) (IsGap.comment hinner .nil) .lastMember)⟩
    decide +kernel
  have htokens : "\x7b\"a\":\":\"/*\"*/\x7d".toList =
      Token.text (.mark '\x7b') ++ (Token.text (.key ['a']) ++ (Token.text (.mark ':') ++ (Token.text (.value [':']) ++
        (Token.text (.comment ['"']) ++ (Token.text (.mark '\x7d') ++ []))))) := by decide +kernel
  have hscans : Scans [] "\x7b\"a\":\":\"/*\"*/\x7d".toList
      ([.mark '\x7b', .key ['a'], .mark ':', .value [':']] ++ .comment ['"'] :: [.mark '\x7d']) := by
    rw [htokens]
    exact .token ⟨by decide, by decide⟩ (.token ⟨ha, rfl⟩ (.token ⟨by decide, by decide⟩
      (.token ⟨hcolon, show ¬ '\x7d' = ':' by decide⟩ (.token hinner (.token ⟨by decide, by decide⟩ .nil)))))
  have hplain : Plain ([.mark '\x7b'] ++ .key ['a'] :: .mark ':' :: [.value [':']]) :=
    .keyed (by decide) (fun hopens => absurd hopens (by decide)) ⟨nofun, trivial⟩
  exact ⟨⟨hwhole, hscans, hplain⟩, ((fieldAnnotations_attached hwhole).2 _ hscans).2 _ _ _ rfl hplain⟩

/-- The quote between two strings of which the second starts with a colon is taken for a key. -/
theorem not_attached_colon : ∃ d, annotated.Whole "\x7b\"a\":[\"v\",\":x\"]/*xs:t*/\x7d".toList d ∧
    ∃ ts, Scans [] "\x7b\"a\":[\"v\",\":x\"]/*xs:t*/\x7d".toList
        (ts ++ .comment ['x', 's', ':', 't'] :: [.mark '\x7d']) ∧
      lastKey ts = some ['a'] ∧
      fieldAnnotations "\x7b\"a\":[\"v\",\":x\"]/*xs:t*/\x7d".toList = [⟨some ",", ⟨some "t", none⟩⟩] := by
  have ha : IsBody ['a'] := .char (by decide) (by decide) .nil
  have hv : IsBody ['v'] := .char (by decide) (by decide) .nil
  have hx : IsBody [':', 'x'] := .char (by decide) (by decide) (.char (by decide) (by decide) .nil)
  have hinner : ¬['*', '/'] <:+: ['x', 's', ':', 't'] := by decide
  have hgap : annotated.gap [] := IsGap.nil
  refine ⟨.record [(['a'], .list [.text ['v'], .text [':', 'x']])], ?_,
    [.mark '\x7b', .key ['a'], .mark ':', .mark '[', .value ['v'], .mark ',', .value [':', 'x'], .mark ']'],
    ?_, rfl, by decide +kernel⟩
  · have hlist := Spells.list hgap (.item (.text hv) hgap (.nextItem hgap (.item (.text hx) hgap .lastItem)))
    refine ⟨[], _, [], ?_, hgap, hgap,
      .record hgap (.member ha hgap hgap hlist (IsGap.comment hinner .nil) .lastMember)⟩
    decide +kernel
  · have htokens : "\x7b\"a\":[\"v\",\":x\"]/*xs:t*/\x7d".toList =
        Token.text (.mark '\x7b') ++ (Token.text (.key ['a']) ++ (Token.text (.mark ':') ++ (Token.text (.mark '[') ++
          (Token.text (.value ['v']) ++ (Token.text (.mark ',') ++ (Token.text (.value [':', 'x']) ++
            (Token.text (.mark ']') ++ (Token.text (.comment ['x', 's', ':', 't']) ++
              (Token.text (.mark '\x7d') ++ []))))))))) := by decide +kernel
    rw [htokens]
    exact .token ⟨by decide, by decide⟩ (.token ⟨ha, rfl⟩ (.token ⟨by decide, by decide⟩ (.token ⟨by decide, by decide⟩
      (.token ⟨hv, show ¬ ',' = ':' by decide⟩ (.token ⟨by decide, by decide⟩ (.token ⟨hx, show ¬ ']' = ':' by decide⟩
        (.token ⟨by decide, by decide⟩ (.token hinner (.token ⟨by decide, by decide⟩ .nil)))))))))

end Template
end MockRedirect
