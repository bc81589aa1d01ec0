import MockRedirect.Proofs.Endpoint
import MockRedirect.Proofs.Resolved
/-! Queries part by part: the placeholders in them, the verb that is found in them, and the path of a URL,
which does not depend on them. -/
namespace MockRedirect
open Text

/-! ### Placeholders -/

namespace Endpoint

variable {s t : List Char}

/-- An angle bracket is still open at the end of a text. -/
def IsOpen (s : List Char) : Prop := ∃ a b, s = a ++ '<' :: b ∧ '>' ∉ b

theorem placeholderLength?_append (h : '>' ∈ s ∨ '>' ∉ t) :
    placeholderLength? (s ++ t) = placeholderLength? s := by
  by_cases hs : '>' ∈ s
  · obtain ⟨a, b, rfl, ha⟩ := List.eq_append_cons_of_mem hs
    have hlt : a.length < (a ++ '>' :: b).length := by simp
    have hlt' : a.length < (a ++ '>' :: (b ++ t)).length := by simp
    rw [List.append_assoc, List.cons_append, placeholderLength?, placeholderLength?,
      before_append_cons ha, before_append_cons ha]
    simp only [hlt, hlt']
  · have hst : '>' ∉ s ++ t := fun hc => (List.mem_append.1 hc).elim hs (h.resolve_left hs)
    rw [placeholderLength?, placeholderLength?, before_of_notMem hs, before_of_notMem hst]
    simp

/-- Placeholders are found in a text and in what follows it, each on its own, unless one reaches over. -/
theorem go_append (h : ¬IsOpen s ∨ '>' ∉ t) {n : Nat} (hn : n ≤ s.length) :
    starPlaceholders.go (s ++ t) n = starPlaceholders.go s n ++ starPlaceholders.go t 0 := by
  induction s generalizing n with
  | nil =>
    obtain rfl := Nat.le_zero.1 hn
    rfl
  | cons c s ih =>
    have hs : ¬IsOpen s ∨ '>' ∉ t := h.imp_left fun hc ⟨a, b, heq, hb⟩ => hc ⟨c :: a, b, by rw [heq]; rfl, hb⟩
    cases n with
    | succ n => exact ih hs (Nat.le_of_succ_le_succ hn)
    | zero =>
      rw [List.cons_append, starPlaceholders.go, starPlaceholders.go]
      by_cases hc : c = '<'
      · have hclose : '>' ∈ s ∨ '>' ∉ t := by
          by_contra hno
          rw [not_or, not_not] at hno
          exact h.elim (fun hopen => hopen ⟨[], s, by rw [hc]; rfl, hno.1⟩) fun ht => ht hno.2
        simp only [if_pos hc, placeholderLength?_append hclose]
        cases hlen : placeholderLength? s with
        | none => exact congrArg (c :: ·) (ih hs (Nat.zero_le _))
        | some n =>
          have hle : n ≤ s.length := by
            simp only [placeholderLength?] at hlen
            split at hlen
            · next hlt =>
              simp only [Bool.and_eq_true, decide_eq_true_eq] at hlt
              cases hlen
              exact hlt.2
            · contradiction
          exact congrArg ('*' :: ·) (ih hs hle)
      · simp only [if_neg hc]
        exact congrArg (c :: ·) (ih hs (Nat.zero_le _))

theorem starPlaceholders_append (h : ¬IsOpen s ∨ '>' ∉ t) :
    starPlaceholders (s ++ t) = starPlaceholders s ++ starPlaceholders t := go_append h (Nat.zero_le _)

theorem starPlaceholders_append_of_notMem (h : '<' ∉ s) (t : List Char) :
    starPlaceholders (s ++ t) = s ++ starPlaceholders t := go_append_of_notMem h t

theorem starPlaceholders_cons {c : Char} (hc : c ≠ '<') (t : List Char) :
    starPlaceholders (c :: t) = c :: starPlaceholders t :=
  starPlaceholders_append_of_notMem (s := [c]) (by simpa using hc.symm) t

theorem mem_go {c : Char} {n : Nat} (h : c ∈ starPlaceholders.go s n) : c ∈ s ∨ c = '*' := by
  induction s generalizing n with
  | nil => contradiction
  | cons d s ih =>
    cases n with
    | succ n => exact (ih h).imp_left (List.mem_cons_of_mem _)
    | zero =>
      rw [starPlaceholders.go] at h
      split at h
      · obtain rfl | h := List.mem_cons.1 h
        · exact .inr rfl
        · exact (ih h).imp_left (List.mem_cons_of_mem _)
      · obtain rfl | h := List.mem_cons.1 h
        · exact .inl List.mem_cons_self
        · exact (ih h).imp_left (List.mem_cons_of_mem _)

theorem mem_starPlaceholders {c : Char} (h : c ∈ starPlaceholders s) : c ∈ s ∨ c = '*' := mem_go h

/-- The parts of a query with what follows each of them, in front of another text. -/
theorem starPlaceholders_parts {ps : List (List Char)}
    (h : (∀ p ∈ ps, ¬IsOpen p) ∨ '>' ∉ ps.flatMap (· ++ ['&']) ++ t) :
    starPlaceholders (ps.flatMap (· ++ ['&']) ++ t) =
      (ps.map starPlaceholders).flatMap (· ++ ['&']) ++ starPlaceholders t := by
  induction ps with
  | nil => rfl
  | cons p ps ih =>
    have hrest : (∀ p ∈ ps, ¬IsOpen p) ∨ '>' ∉ ps.flatMap (· ++ ['&']) ++ t := by
      refine h.imp (fun h q hq => h q (List.mem_cons_of_mem _ hq)) fun h hc => h ?_
      simpa using .inr (by simpa using hc)
    have hp : ¬IsOpen p ∨ '>' ∉ '&' :: (ps.flatMap (· ++ ['&']) ++ t) := by
      refine h.imp (fun h => h p List.mem_cons_self) fun h hc => h ?_
      obtain hc | hc := List.mem_cons.1 hc
      · contradiction
      · simpa using .inr (by simpa using hc)
    have htext : (p :: ps).flatMap (· ++ ['&']) ++ t = p ++ '&' :: (ps.flatMap (· ++ ['&']) ++ t) := by
      simp
    rw [htext, starPlaceholders_append hp, starPlaceholders_cons (by decide), ih hrest]
    simp

/-! ### Parts -/

/-- A part of a query that carries the verb as it is typed. -/
def isVerbPart (part : List Char) : Bool := startsWith (Verb.param ++ "=").toList part

/-- The parts of a query that stand before its verb, or all of them if it has none. -/
def lead (query : List Char) : List (List Char) :=
  ((split '&' query).filter (· ≠ [])).takeWhile (!isVerbPart ·)

theorem mem_of_mem_lead {query p : List Char} (hp : p ∈ lead query) {c : Char} (hc : c ∈ p) :
    c ∈ query ∧ c ≠ '&' :=
  mem_of_mem_split (List.mem_filter.1 ((List.takeWhile_sublist _).subset hp)).1 hc

/-- The new verb follows the parts that stand before the old one. -/
theorem exists_verbParts (verb : Verb) (query : List Char) : ∃ rest,
    verbParts verb query = lead query ++ Verb.queryOf verb.text.toList :: rest ∧
      ∀ p ∈ rest, ∀ c ∈ p, c ∈ query ∨ c ∈ Verb.queryOf verb.text.toList := by
  have hnew : (Verb.param ++ "=" ++ verb.text).toList = Verb.queryOf verb.text.toList := by
    simp [Verb.queryOf]
  have hparts (ps : List (List Char)) (hps : ∀ p ∈ ps, ∀ c ∈ p, c ∈ query) : ∃ rest,
      ps.map (fun p => if isVerbPart p then Verb.queryOf verb.text.toList else p) ++
        (if ps.any isVerbPart then [] else [Verb.queryOf verb.text.toList]) =
        ps.takeWhile (!isVerbPart ·) ++ Verb.queryOf verb.text.toList :: rest ∧
      ∀ p ∈ rest, ∀ c ∈ p, c ∈ query ∨ c ∈ Verb.queryOf verb.text.toList := by
    induction ps with
    | nil => exact ⟨[], rfl, by simp⟩
    | cons p ps ih =>
      rw [List.forall_mem_cons] at hps
      by_cases hp : isVerbPart p = true
      · refine ⟨_, by simp [hp]; rfl, fun q hq c hc => ?_⟩
        obtain ⟨r, hr, rfl⟩ := List.mem_map.1 hq
        split at hc
        · exact .inr hc
        · exact .inl (hps.2 r hr c hc)
      · obtain ⟨rest, heq, hrest⟩ := ih hps.2
        refine ⟨rest, ?_, hrest⟩
        simp only [List.map_cons, List.any_cons, hp, Bool.false_or, List.takeWhile_cons, Bool.not_false,
          if_true, List.cons_append]
        simpa using heq
  rw [verbParts, hnew]
  exact hparts _ fun p hp c hc => (mem_of_mem_split (List.mem_filter.1 hp).1 hc).1

end Endpoint

/-! ### Verbs -/

namespace Verb

variable {p t : List Char} {v : Verb}

theorem filled_of (hne : p ≠ []) (hblank : ∀ c ∈ p, isBlank c = false) : (of p).filled = some (of p) := by
  have hempty : (of p).isEmpty = false := by
    simp [isEmpty, of, trim_of_not_blank hblank, uppercase, hne]
  rw [filled, hempty, if_neg Bool.false_ne_true]

/-- The verb of a query is that of its first part, or else of what follows this part. -/
theorem find?_append (hamp : '&' ∉ p) (hblank : ∀ c ∈ p, isBlank c = false) (t : List Char) :
    find? (p ++ '&' :: t) = (find? p).or (find? t) := by
  have hmark : '&' ∉ (param ++ "=").toList := by decide
  induction p with
  | nil => rfl
  | cons c p ih =>
    have hrest := ih (fun hc => hamp (List.mem_cons_of_mem _ hc)) fun d hd =>
      hblank d (List.mem_cons_of_mem _ hd)
    have hafter := after?_append_cons hmark (c :: p) t
    rw [List.cons_append] at hafter ⊢
    rw [find?, find?, hafter]
    cases hv : after? (param ++ "=").toList (c :: p) with
    | none => exact hrest
    | some r =>
      have hsub : ∀ d ∈ r, d ∈ c :: p := fun d hd => by
        rw [after?_eq_some.1 hv]
        exact List.mem_append_right _ hd
      have hr : '&' ∉ r := fun hc => hamp (hsub _ hc)
      simp only [Option.map_some, before_append_cons hr, before_of_notMem hr]
      split
      · exact hrest
      · next hne => rw [filled_of hne fun d hd => hblank d (hsub d hd), Option.some_or]

/-- Parts that carry no verb are passed over. -/
theorem find?_parts {ps : List (List Char)} (h : ∀ p ∈ ps, find? p = none)
    (hchars : ∀ p ∈ ps, ∀ c ∈ p, c ≠ '&' ∧ isBlank c = false) (t : List Char) :
    find? (ps.flatMap (· ++ ['&']) ++ t) = find? t := by
  induction ps with
  | nil => rfl
  | cons p ps ih =>
    rw [List.forall_mem_cons] at h hchars
    have htext : (p :: ps).flatMap (· ++ ['&']) ++ t = p ++ '&' :: (ps.flatMap (· ++ ['&']) ++ t) := by
      simp
    rw [htext, find?_append (fun hc => (hchars.1 _ hc).1 rfl) (fun c hc => (hchars.1 c hc).2), h.1,
      Option.none_or, ih h.2 hchars.2]

theorem notMem_queryOf {s : List Char} (h : ∀ c ∈ s, isAsciiLetter c = true) : '&' ∉ queryOf s := by
  intro hc
  obtain he | hl := mem_queryOf h hc
  · contradiction
  · contradiction

/-- What may follow a part of a query: nothing, or further parts. -/
def IsRest (s : List Char) : Prop := s = [] ∨ ∃ t, s = '&' :: t

theorem IsPlain.find?_queryOf (h : v.IsPlain) {t : List Char} (ht : IsRest t) :
    find? (queryOf v.text.toList ++ t) = some v := by
  have hverb : find? (queryOf v.text.toList) = some v := by
    rw [Verb.find?_queryOf fun hc => absurd (h.letters _ hc) (by decide), h.of_text, h.filled]
  obtain rfl | ⟨t, rfl⟩ := ht
  · rwa [List.append_nil]
  · rw [find?_append (notMem_queryOf h.letters) fun c hc => (queryOf_cases h.letters hc).2.2.2, hverb,
      Option.some_or]

end Verb

namespace Address

variable {path p t : List Char} {name : List Char}

theorem pairs_append_cons (hamp : '&' ∉ p) (t : List Char) : pairs (p ++ '&' :: t) = pairs p ++ pairs t := by
  rw [pairs, pairs, pairs, split_append_cons hamp, split_of_notMem hamp]
  by_cases hp : p = [] <;> simp [hp]

/-- A value in a query is found in its first part, or else in what follows this part. -/
theorem value?_append (hamp : '&' ∉ p) (path t name : List Char) : value? ⟨path, some (p ++ '&' :: t)⟩ name =
    (value? ⟨path, some p⟩ name).or (value? ⟨path, some t⟩ name) := by
  simp only [value?, Option.bind_eq_bind, Option.bind_some, pairs_append_cons hamp, List.find?_append]
  cases (pairs p).find? fun x => x.1 = name <;> rfl

theorem value?_parts {ps : List (List Char)} (h : ∀ p ∈ ps, value? ⟨path, some p⟩ name = none)
    (hamp : ∀ p ∈ ps, '&' ∉ p) (t : List Char) :
    value? ⟨path, some (ps.flatMap (· ++ ['&']) ++ t)⟩ name = value? ⟨path, some t⟩ name := by
  induction ps with
  | nil => rfl
  | cons p ps ih =>
    rw [List.forall_mem_cons] at h hamp
    have htext : (p :: ps).flatMap (· ++ ['&']) ++ t = p ++ '&' :: (ps.flatMap (· ++ ['&']) ++ t) := by
      simp
    rw [htext, value?_append hamp.1, h.1, Option.none_or, ih h.2 hamp.2]

/-- The verb at the front of a query. -/
theorem verb?_queryOf {v : Verb} (hv : v.IsPlain) {t : List Char} (ht : Verb.IsRest t) (path : List Char) :
    verb? ⟨path, some (Verb.queryOf v.text.toList ++ t)⟩ = some v := by
  have hvalue : value? ⟨path, some (Verb.queryOf v.text.toList ++ t)⟩ Verb.param.toList =
      some v.text.toList := by
    obtain rfl | ⟨t, rfl⟩ := ht
    · rw [List.append_nil, Verb.value?_queryOf hv.letters]
    · rw [value?_append (Verb.notMem_queryOf hv.letters), Verb.value?_queryOf hv.letters, Option.some_or]
  rw [verb?, hvalue, Option.bind_some, hv.of_text, hv.filled]

/-! ### Reading -/

/-- A query as it is left when the text that ends with it is cleaned. -/
def cleanedEnd (q : List Char) : List Char :=
  (q.reverse.dropWhile (·.toNat ≤ 0x20)).reverse.filter fun c => c ≠ '\t' && c ≠ '\n' && c ≠ '\r'

variable {s q : List Char} {c : Char}

/-- What cleaning keeps wherever it stands. -/
def isInLine (c : Char) : Bool := c ≠ '\t' && c ≠ '\n' && c ≠ '\r'

/-- Nothing is cut off before a character above the blanks. -/
theorem cleanedEnd_append_high (hc : 0x20 < c.toNat) (s q : List Char) :
    cleanedEnd (s ++ c :: q) = s.filter isInLine ++ c :: cleanedEnd q := by
  have hlow : ¬c.toNat ≤ 0x20 := by omega
  have hdrop : (s ++ c :: q).reverse.dropWhile (·.toNat ≤ 0x20) =
      q.reverse.dropWhile (·.toNat ≤ 0x20) ++ c :: s.reverse := by
    rw [List.reverse_append, List.reverse_cons, List.append_assoc, List.dropWhile_append]
    split
    · next hempty =>
      rw [List.isEmpty_iff.1 hempty]
      simp [hlow]
    · rfl
  rw [cleanedEnd, hdrop, List.reverse_append, List.reverse_cons, List.reverse_reverse, List.append_assoc,
    List.filter_append, List.singleton_append, List.filter_cons_of_pos (by simp [ne_of_high hc])]
  rfl

/-- Cleaning leaves a text alone that ends with a character above the blanks and has no tab and no line
end. -/
theorem cleanedEnd_append_cons (hs : ∀ d ∈ s, d ≠ '\t' ∧ d ≠ '\n' ∧ d ≠ '\r') (hc : 0x20 < c.toNat)
    (q : List Char) : cleanedEnd (s ++ c :: q) = s ++ c :: cleanedEnd q := by
  have hkept : s.filter isInLine = s := List.filter_eq_self.2 fun d hd => by simp [isInLine, hs d hd]
  rw [cleanedEnd_append_high hc, hkept]

theorem cleaned_append_cons (hhead : (s ++ c :: q).head?.any (·.toNat ≤ 0x20) = false)
    (hs : ∀ d ∈ s, d ≠ '\t' ∧ d ≠ '\n' ∧ d ≠ '\r') (hc : 0x20 < c.toNat) :
    cleaned (s ++ c :: q) = s ++ c :: cleanedEnd q := by
  rw [cleaned, dropWhile_of_head hhead]
  exact cleanedEnd_append_cons hs hc q

theorem cleanedEnd_append (hs : ∀ d ∈ s, 0x20 < d.toNat) (q : List Char) :
    cleanedEnd (s ++ q) = s ++ cleanedEnd q := by
  induction s with
  | nil => rfl
  | cons c s ih =>
    rw [List.forall_mem_cons] at hs
    exact (cleanedEnd_append_cons (s := []) (by simp) hs.1 (s ++ q)).trans (congrArg (c :: ·) (ih hs.2))

theorem isRest_cleanedEnd (h : Verb.IsRest q) : Verb.IsRest (cleanedEnd q) := by
  obtain rfl | ⟨t, rfl⟩ := h
  · exact .inl rfl
  · exact .inr ⟨_, cleanedEnd_append_cons (s := []) (by simp) (by decide) t⟩

theorem isRest_before (h : Verb.IsRest q) : Verb.IsRest (before '#' q) := by
  obtain rfl | ⟨t, rfl⟩ := h
  · exact .inl rfl
  · exact .inr ⟨_, rfl⟩

/-- The verb of a query that is cleaned with its URL, if no part before it has one. -/
theorem verb?_cleanedEnd {ps : List (List Char)} {v : Verb} (hv : v.IsPlain)
    (h : ∀ p ∈ ps, value? ⟨[], some p⟩ Verb.param.toList = none)
    (hchars : ∀ p ∈ ps, ∀ c ∈ p, c ≠ '&' ∧ c ≠ '#' ∧ isBlank c = false) {t : List Char} (ht : Verb.IsRest t)
    (path : List Char) : verb? ⟨path, some (before '#' (cleanedEnd
      (ps.flatMap (· ++ ['&']) ++ (Verb.queryOf v.text.toList ++ t))))⟩ = some v := by
  have hlead : ∀ c ∈ ps.flatMap (· ++ ['&']), c ≠ '#' ∧ isBlank c = false := by
    intro c hc
    obtain ⟨p, hp, hc⟩ := List.mem_flatMap.1 hc
    obtain hc | hc := List.mem_append.1 hc
    · exact (hchars p hp c hc).2
    · obtain rfl := List.mem_singleton.1 hc
      decide
  have hverb : ∀ c ∈ Verb.queryOf v.text.toList, 0x20 < c.toNat ∧ c ≠ '#' := fun c hc =>
    Verb.isPlainQuery_queryOf hv.letters _ rfl c hc
  have hclean : cleanedEnd (ps.flatMap (· ++ ['&']) ++ (Verb.queryOf v.text.toList ++ t)) =
      ps.flatMap (· ++ ['&']) ++ (Verb.queryOf v.text.toList ++ cleanedEnd t) := by
    have hfront : ∀ c ∈ ps.flatMap (· ++ ['&']), c ≠ '\t' ∧ c ≠ '\n' ∧ c ≠ '\r' := by
      intro c hc
      refine ⟨?_, ?_, ?_⟩ <;> rintro rfl <;> exact absurd (hlead _ hc).2 (by decide)
    have hquery : Verb.queryOf v.text.toList = 'M' :: 'T' :: '=' :: v.text.toList := rfl
    rw [hquery, List.forall_mem_cons] at hverb
    rw [hquery, List.cons_append, cleanedEnd_append_cons hfront (by decide),
      cleanedEnd_append fun c hc => (hverb.2 c hc).1]
    rfl
  rw [hclean, before_append fun hc => (hlead _ hc).1 rfl, before_append fun hc => (hverb _ hc).2 rfl, verb?]
  have hvalue : value? ⟨path, some (ps.flatMap (· ++ ['&']) ++
      (Verb.queryOf v.text.toList ++ before '#' (cleanedEnd t)))⟩ Verb.param.toList =
      value? ⟨path, some (Verb.queryOf v.text.toList ++ before '#' (cleanedEnd t))⟩ Verb.param.toList :=
    value?_parts h (fun p hp hc => (hchars p hp _ hc).1 rfl) _
  rw [hvalue]
  exact verb?_queryOf hv (isRest_before (isRest_cleanedEnd ht)) path

/-- An authority that is accepted at the end of a text is accepted in front of one. -/
theorem checkAuthority_true {glued : List Char} {more : Bool} (h : checkAuthority true s more = .ok glued) :
    checkAuthority true s true = .ok glued := by
  cases more with
  | true => exact h
  | false =>
    obtain ⟨⟨user, hostPort⟩, hu, h⟩ := bind_eq_ok.1 h
    refine bind_eq_ok.2 ⟨(user, hostPort), ?_, h⟩
    rw [splitUser] at hu ⊢
    split at hu
    · exact hu
    · split at hu
      · contradiction
      · cases hu
        refine if_neg ?_
        rintro ⟨-, hrest, -⟩
        -- neither a user nor a host: then there is no host
        rw [hrest] at h
        obtain ⟨_, hhost, -⟩ := bind_eq_ok.1 h
        cases hhost

/-- The reading of a URL goes on behind its slashes. -/
theorem read_originText_cleanedEnd (secure : Bool) (s : List Char) : read false (originText secure s) =
    afterSlashes .special ((cleanedEnd s).dropWhile (isSlash .special)) := by
  have htext (s : List Char) : originText secure s =
      ((if secure then "https".toList else "http".toList) ++ ":/".toList) ++ '/' :: s := by simp [originText]
  have hclean : cleaned (originText secure s) = originText secure (cleanedEnd s) := by
    rw [htext, htext]
    exact cleaned_append_cons (by cases secure <;> rfl)
      (by cases secure <;> exact forall_mem_of_all (by decide)) (by decide)
  have hscheme := scheme?_origin secure (cleanedEnd s) []
  have hkind : schemeKind (if secure then "https".toList else "http".toList) = .special := by
    cases secure <;> rfl
  have hslashes : ('/' :: '/' :: cleanedEnd s).dropWhile (isSlash .special) =
      (cleanedEnd s).dropWhile (isSlash .special) := rfl
  rw [List.append_nil, List.append_nil] at hscheme
  rw [read, hclean, hscheme]
  simp only [readScheme, hkind, hslashes, Bool.false_eq_true, false_and, if_false]

theorem read_originText (secure : Bool) (hs : ∀ c ∈ s, c ≠ '?' ∧ c ≠ '#' ∧ 0x20 < c.toNat)
    (query : Option (List Char)) : read false (originText secure s ++ queryText query) =
      afterSlashes .special (s.dropWhile (isSlash .special) ++ queryText (query.map cleanedEnd)) := by
  have hclean : cleanedEnd (s ++ queryText query) = s ++ queryText (query.map cleanedEnd) := by
    cases query with
    | none => exact cleanedEnd_append (fun c hc => (hs c hc).2.2) []
    | some q => exact cleanedEnd_append_cons (fun c hc => ne_of_high (hs c hc).2.2) (by decide) q
  have htext : originText secure s ++ queryText query = originText secure (s ++ queryText query) :=
    List.append_assoc ..
  rw [htext, read_originText_cleanedEnd, hclean, (span_queryText (by decide) s _).2]

/-- A URL that is read with some query, or none, is read with any other one, and its path is the same. -/
theorem read_query_of_read {secure : Bool} (hs : ∀ c ∈ s, c ≠ '?' ∧ c ≠ '#' ∧ 0x20 < c.toNat)
    {query : Option (List Char)} {a : Address}
    (h : read false (originText secure s ++ queryText query) = .ok a) :
    (∃ t, a.path = rooted .special t) ∧ ∀ q, read false (originText secure s ++ '?' :: q) =
      .ok ⟨a.path, some (before '#' (cleanedEnd q))⟩ := by
  have hchars : '?' ∉ s.dropWhile (isSlash .special) ∧ '#' ∉ s.dropWhile (isSlash .special) := by
    have hsub := (List.dropWhile_sublist (isSlash .special) (l := s)).subset
    exact ⟨fun hc => (hs _ (hsub hc)).1 rfl, fun hc => (hs _ (hsub hc)).2.1 rfl⟩
  rw [read_originText secure hs, afterSlashes_queryText hchars] at h
  obtain ⟨glued, hglued, rfl⟩ := map_eq_ok.1 h
  refine ⟨⟨_, rfl⟩, fun q => ?_⟩
  have hmore : (!((s.dropWhile (isSlash .special)).dropWhile inHost ++
      queryText ((some q).map cleanedEnd)).isEmpty) = true := by simp [queryText]
  have hread := read_originText secure hs (some q)
  rw [afterSlashes_queryText hchars, hmore, checkAuthority_true hglued] at hread
  exact hread

/-- Whatever query stands behind a path of settled segments, the path is read as it is. -/
theorem read_pathOf_query {ss : List (List Char)} (h : ∀ s ∈ ss, IsSettled s) (q : List Char) :
    read true (pathOf ss ++ '?' :: q) = .ok ⟨pathOf ss, some (before '#' (cleanedEnd q))⟩ := by
  have hss : ∀ s ∈ ss, SettledOrEmpty s := fun s hs => .inr (h s hs)
  have hclean : cleaned (pathOf ss ++ '?' :: q) = pathOf ss ++ queryText (some (cleanedEnd q)) :=
    cleaned_append_cons rfl (fun c hc => ne_of_high (path_cases hss hc).2.2) (by decide)
  have hscheme : scheme? (pathOf ss ++ queryText (some (cleanedEnd q))) = none := rfl
  rw [read, hclean, hscheme]
  simp only [if_true, readRelative_pathOf h, finish_pathOf hss, Option.map_some]

end Address
end MockRedirect
