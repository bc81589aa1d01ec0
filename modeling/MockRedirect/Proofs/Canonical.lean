import MockRedirect.Proofs.Recording
/-! Compiled endpoints are in a canonical form: compiling the template of one gives the endpoint back. What is
typed may hold brackets that belong to no placeholder. They stay in the path, and none of them finds a partner
when empty segments are dropped and numbers become stars. -/
namespace MockRedirect
open Text

/-! ### Texts -/

namespace Text

theorem mem_join_of_mem {sep c : Char} {s : List Char} {ss : List (List Char)} (hs : s ∈ ss) (hc : c ∈ s) :
    c ∈ join [sep] ss := by
  obtain ⟨pre, post, rfl⟩ := List.append_of_mem hs
  rw [join_append_cons]
  exact List.mem_append_right _ (List.mem_append_left _ hc)

end Text

namespace Address

/-- What a scheme is made of. -/
def inScheme (c : Char) : Bool :=
  isAsciiLetter c || isAsciiDigit c || c == '+' || c == '-' || c == '.'

theorem lower_of_inScheme {c : Char} (h : inScheme c = true) : lower c = folded c := by
  refine of_ascii (p := fun c => lower c = folded c) (by decide +kernel) ?_
  simp only [inScheme, Bool.or_eq_true, beq_iff_eq] at h
  obtain (((h | h) | rfl) | rfl) | rfl := h
  · exact toNat_lt_of_isAsciiLetter h
  · exact toNat_lt_of_isAsciiDigit h
  · decide
  · decide
  · decide

/-- A scheme ends at the first colon. -/
theorem fst_of_scheme? {w t : List Char} {r : List Char × List Char} (hw : ':' ∉ w)
    (h : scheme? (w ++ ':' :: t) = some r) : r.1 = w.map folded := by
  unfold scheme? at h
  dsimp only at h
  split at h
  · next rest hdrop =>
    change (w ++ ':' :: t).dropWhile inScheme = _ at hdrop
    split at h
    · cases h
      have htext := List.takeWhile_append_dropWhile (p := inScheme) (l := w ++ ':' :: t)
      have hin : ∀ c ∈ (w ++ ':' :: t).takeWhile inScheme, inScheme c = true := fun c hc =>
        List.mem_takeWhile_imp hc
      rw [hdrop] at htext
      have hwhole : (w ++ ':' :: t).takeWhile inScheme = w := by
        have hbefore := congrArg (before ':') htext
        rwa [before_append_cons fun hc => absurd (hin _ hc) (by decide), before_append_cons hw] at hbefore
      rw [hwhole] at hin
      change lowercase ((w ++ ':' :: t).takeWhile inScheme) = _
      rw [hwhole]
      exact List.map_congr_left fun c hc => lower_of_inScheme (hin c hc)
    · contradiction
  · contradiction

end Address

namespace Endpoint

variable {s t path : List Char} {ss : List (List Char)} {c d : Char}

/-! ### Brackets without a placeholder -/

theorem isSome_placeholderLength? : (placeholderLength? s).isSome = true ↔ '>' ∈ s ∧ s.head? ≠ some '>' := by
  cases s with
  | nil => decide
  | cons c s =>
    by_cases hc : c = '>'
    · subst hc
      simp [placeholderLength?, before]
    · have hbefore : before '>' (c :: s) = c :: before '>' s := by simp [before, hc]
      have hlength : (before '>' s).length < s.length ↔ '>' ∈ s := by
        constructor
        · intro hlt
          by_contra hs
          rw [before_of_notMem hs] at hlt
          omega
        · intro hs
          obtain ⟨a, b, rfl, ha⟩ := List.eq_append_cons_of_mem hs
          rw [before_append_cons ha]
          simp
      simp [placeholderLength?, hbefore, hlength, hc, Ne.symm hc]

theorem hasPlaceholder_cons : hasPlaceholder (c :: s) = false ↔
    (c = '<' → '>' ∈ s → s.head? = some '>') ∧ hasPlaceholder s = false := by
  rw [hasPlaceholder, Bool.or_eq_false_iff, and_congr_left_iff]
  intro
  rw [← Bool.not_eq_true, Bool.and_eq_true, isSome_placeholderLength?, beq_iff_eq]
  tauto

theorem hasPlaceholder_of_notMem (h : '<' ∉ s) : hasPlaceholder s = false := by
  induction s with
  | nil => rfl
  | cons c s ih =>
    rw [List.mem_cons, not_or] at h
    exact hasPlaceholder_cons.2 ⟨fun hc => absurd hc.symm h.1, ih h.2⟩

/-- Once every placeholder has been replaced there is none. -/
theorem hasPlaceholder_go (s : List Char) (n : Nat) : hasPlaceholder (starPlaceholders.go s n) = false := by
  induction s generalizing n with
  | nil => rfl
  | cons c s ih =>
    cases n with
    | succ n => exact ih n
    | zero =>
      rw [starPlaceholders.go]
      split
      · exact hasPlaceholder_cons.2 ⟨fun hc => absurd hc (by decide), ih _⟩
      · next hnone =>
        refine hasPlaceholder_cons.2 ⟨fun hc hmem => ?_, ih 0⟩
        -- an open bracket stays only in front of a closing one, or of none at all
        rw [if_pos hc, ← Option.not_isSome_iff_eq_none, isSome_placeholderLength?, not_and, not_not] at hnone
        have hs : '>' ∈ s := (mem_go hmem).resolve_right (by decide)
        cases s with
        | nil => contradiction
        | cons d s =>
          obtain rfl : d = '>' := by simpa using hnone hs
          rfl

theorem isOpen_cons : IsOpen (c :: s) ↔ (c = '<' ∧ '>' ∉ s) ∨ IsOpen s := by
  constructor
  · rintro ⟨a, b, heq, hb⟩
    cases a with
    | nil =>
      obtain ⟨rfl, rfl⟩ := List.cons.inj heq
      exact .inl ⟨rfl, hb⟩
    | cons x a => exact .inr ⟨a, b, (List.cons.inj heq).2, hb⟩
  · rintro (⟨rfl, hs⟩ | ⟨a, b, rfl, hb⟩)
    · exact ⟨[], s, rfl, hs⟩
    · exact ⟨c :: a, b, rfl, hb⟩

/-- Two texts have no placeholder together if neither has one on its own and none reaches over. -/
theorem hasPlaceholder_append_cons (hd : d ≠ '>') : hasPlaceholder (s ++ d :: t) = false ↔
    hasPlaceholder s = false ∧ hasPlaceholder (d :: t) = false ∧ (IsOpen s → '>' ∉ t) := by
  induction s with
  | nil =>
    have hclosed : ¬IsOpen [] := fun ⟨a, b, h, _⟩ => by simp at h
    simp [hclosed, hasPlaceholder]
  | cons c s ih =>
    have hhead : '>' ∉ s → (s ++ d :: t).head? ≠ some '>' := by
      cases s with
      | nil => simpa using hd
      | cons e s => simpa using fun h _ => Ne.symm h
    have hin : '>' ∈ s → (s ++ d :: t).head? = s.head? := by
      cases s with
      | nil => simp
      | cons e s => simp
    have hmem : '>' ∈ s ++ d :: t ↔ '>' ∈ s ∨ '>' ∈ t := by
      simp [Ne.symm hd]
    rw [List.cons_append, hasPlaceholder_cons, hasPlaceholder_cons, isOpen_cons, ih, hmem]
    by_cases hs : '>' ∈ s
    · simp only [hin hs, hs, true_or, not_true_eq_false, and_false, false_or, and_assoc]
    · -- what is opened in front of the text could only be closed behind it
      simp only [hs, hhead hs, false_or, false_imp_iff, imp_true_iff, true_and, not_false_iff, and_true, or_imp]
      constructor
      · rintro ⟨hc, hleft, hright, hopen⟩
        exact ⟨hleft, hright, hc, hopen⟩
      · rintro ⟨hleft, hright, hc, hopen⟩
        exact ⟨hc, hleft, hright, hopen⟩

theorem hasPlaceholder_before (h : hasPlaceholder s = false) : hasPlaceholder (before '?' s) = false := by
  by_cases hs : '?' ∈ s
  · obtain ⟨a, b, rfl, ha⟩ := List.eq_append_cons_of_mem hs
    rw [before_append_cons ha]
    exact ((hasPlaceholder_append_cons (by decide)).1 h).1
  · rwa [before_of_notMem hs]

theorem hasPlaceholder_join : hasPlaceholder (join ['/'] ss) = false ↔
    (∀ s ∈ ss, hasPlaceholder s = false) ∧ ss.Pairwise fun s t => IsOpen s → '>' ∉ t := by
  induction ss with
  | nil => simp [join, hasPlaceholder]
  | cons s ss ih =>
    cases ss with
    | nil => simp [join]
    | cons t ss =>
      have hclose : '>' ∉ join ['/'] (t :: ss) ↔ ∀ u ∈ t :: ss, '>' ∉ u := by
        constructor
        · exact fun h u hu hc => h (mem_join_of_mem hu hc)
        · intro h hc
          obtain hslash | ⟨u, hu, hc⟩ := mem_join hc
          · contradiction
          · exact h u hu hc
      have hslash : hasPlaceholder ('/' :: join ['/'] (t :: ss)) = hasPlaceholder (join ['/'] (t :: ss)) := rfl
      have htext : join ['/'] (s :: t :: ss) = s ++ '/' :: join ['/'] (t :: ss) := by simp [join]
      rw [htext, hasPlaceholder_append_cons (by decide), hslash, ih, hclose,
        List.pairwise_cons (a := s), List.forall_mem_cons (l := t :: ss)]
      constructor
      · rintro ⟨hs, ⟨hss, hpair⟩, hopen⟩
        exact ⟨⟨hs, hss⟩, fun u hu ho => hopen ho u hu, hpair⟩
      · rintro ⟨⟨hs, hss⟩, hopen, hpair⟩
        exact ⟨hs, ⟨hss, hpair⟩, fun ho u hu => hopen u hu ho⟩

/-- No bracket finds a partner when empty segments are dropped and numbers become stars. -/
theorem hasPlaceholder_starNumbers (h : hasPlaceholder path = false) :
    hasPlaceholder (pathOf (starNumbers path)) = false := by
  rw [← join_split '/' path] at h
  obtain ⟨hown, hpair⟩ := hasPlaceholder_join.1 h
  have hstar (s : List Char) : (IsOpen (if isNumeric s then ['*'] else s) → IsOpen s) ∧
      ('>' ∉ s → '>' ∉ if isNumeric s then ['*'] else s) := by
    split
    · refine ⟨?_, fun _ => by decide⟩
      rintro ⟨a, b, heq, -⟩
      have hmem : '<' ∈ ['*'] := heq ▸ List.mem_append_right a List.mem_cons_self
      exact absurd hmem (by decide)
    · exact ⟨id, id⟩
  have hslash : hasPlaceholder (pathOf (starNumbers path)) = hasPlaceholder (join ['/'] (starNumbers path)) := rfl
  rw [hslash, hasPlaceholder_join]
  refine ⟨forall_mem_starNumbers (by decide) fun s hs _ => hown s hs, ?_⟩
  have hkept := hpair.filter (· ≠ [])
  rw [starNumbers]
  split
  · exact List.Pairwise.nil
  · next s ss heq =>
    rw [heq, List.pairwise_cons] at hkept
    rw [List.pairwise_cons, List.forall_mem_map, List.pairwise_map]
    exact ⟨fun t ht ho => (hstar t).2 (hkept.1 t ht ho),
      hkept.2.imp fun hopen ho => (hstar _).2 (hopen ((hstar _).1 ho))⟩

/-! ### Full URLs -/

/-- A full URL begins with its scheme, in whatever case, and then a colon and two slashes. -/
theorem exists_scheme (h : isFullUrl s = true) : ∃ w rest, s = w ++ ':' :: '/' :: '/' :: rest ∧
    (w.map folded = "http".toList ∨ w.map folded = "https".toList) := by
  have hstart (name : List Char) (h : startsWith (name ++ "://".toList) ((s.take 8).map folded) = true) :
      ∃ w rest, s = w ++ ':' :: '/' :: '/' :: rest ∧ w.map folded = name := by
    obtain ⟨r, hr⟩ := Option.isSome_iff_exists.1 h
    obtain ⟨front, more, htake, hfront, -⟩ := List.map_eq_append_iff.1 (after?_eq_some.1 hr)
    obtain ⟨w, mark, rfl, hw, hmark⟩ := List.map_eq_append_iff.1 hfront
    have hplain : mark.map folded = mark := by
      refine (List.map_congr_left fun c hc => folded_eq_self ?_).trans (List.map_id mark)
      have hin : folded c ∈ "://".toList := hmark ▸ List.mem_map_of_mem hc
      exact forall_mem_of_all (p := fun c => isAsciiLetter c = false) (s := "://".toList) (by decide) _ hin
    rw [hplain] at hmark
    refine ⟨w, more ++ s.drop 8, ?_, hw⟩
    conv_lhs => rw [← List.take_append_drop 8 s, htake, hmark]
    simp
  rw [isFullUrl, Bool.or_eq_true] at h
  obtain h | h := h
  · obtain ⟨w, rest, hs, hw⟩ := hstart "http".toList h
    exact ⟨w, rest, hs, .inl hw⟩
  · obtain ⟨w, rest, hs, hw⟩ := hstart "https".toList h
    exact ⟨w, rest, hs, .inr hw⟩

/-- What is read as a full URL has the path of a URL with a host. -/
theorem exists_rooted_of_isFullUrl {a : Address} (hfull : isFullUrl s = true)
    (h : Address.read false s = .ok a) : ∃ w, a.path = Address.rooted .special w := by
  obtain ⟨w, rest, rfl, hname⟩ := exists_scheme hfull
  have hletters : ∀ c ∈ w, isAsciiLetter (folded c) = true := by
    intro c hc
    have hin : folded c ∈ w.map folded := List.mem_map_of_mem hc
    obtain hname | hname := hname
    · exact forall_mem_of_all (p := fun c => isAsciiLetter c = true) (by decide) _ (hname ▸ hin)
    · exact forall_mem_of_all (p := fun c => isAsciiLetter c = true) (by decide) _ (hname ▸ hin)
  have hhigh : ∀ c ∈ w, 0x20 < c.toNat := by
    intro c hc
    by_contra hlow
    exact of_ascii (p := fun c => c.toNat ≤ 0x20 → isAsciiLetter (folded c) ≠ true) (by decide +kernel)
      (show c.toNat < 128 by omega) (by omega) (hletters c hc)
  have hclean : Address.cleaned (w ++ ':' :: '/' :: '/' :: rest) =
      w ++ ':' :: Address.cleanedEnd ('/' :: '/' :: rest) := by
    refine Address.cleaned_append_cons ?_ (fun c hc => Address.ne_of_high (hhigh c hc)) (by decide)
    cases w with
    | nil => rfl
    | cons c w => simpa using hhigh c List.mem_cons_self
  rw [Address.read, hclean] at h
  split at h
  · next scheme tail hscheme =>
    have hcolon : ':' ∉ w := fun hc => absurd (hletters _ hc) (by decide)
    have hkind : Address.schemeKind scheme = .special := by
      have hfst : scheme = w.map folded := Address.fst_of_scheme? hcolon hscheme
      obtain hname | hname := hname
      · rw [hfst, hname]
        rfl
      · rw [hfst, hname]
        rfl
    simp only [Address.readScheme, hkind, Bool.false_eq_true, false_and, if_false] at h
    obtain ⟨glued, -, h⟩ := bind_eq_ok.1 h
    cases h
    obtain ⟨p, hp, -⟩ := Address.path_finish
      (fun p => if Address.SchemeKind.special = .other ∧ p = [] then [] else Address.rooted .special p) _
    exact ⟨p, hp⟩
  · contradiction

/-! ### Paths -/

/-- The path of a template that is compiled to itself: a slash, or segments of which none is empty, and of which
none behind the first one is a number. -/
structure IsCanonical (path : String) : Prop extends IsPath path where
  filled : path = "/" ∨ ∀ s ∈ (split '/' path.toList).tail, s ≠ []
  no_number : ∀ s ∈ (split '/' path.toList).tail.tail, isNumeric s = false

theorem hasPlaceholder_of_parts {raw : List Char} {verb : Option Verb}
    (h : parts raw (starPlaceholders s) = .ok (path, verb)) : hasPlaceholder path = false := by
  rw [parts] at h
  split at h
  · next hfull =>
    split at h
    · next a ha =>
      cases h
      obtain ⟨w, hw⟩ := exists_rooted_of_isFullUrl hfull ha
      refine hasPlaceholder_of_notMem fun hc => ?_
      rw [hw] at hc
      obtain hc | hc := Address.inPath_rooted _ hc <;> contradiction
    · contradiction
  · cases h
    exact hasPlaceholder_before (hasPlaceholder_go s 0)

theorem nonempty_starNumbers (path : List Char) : ∀ s ∈ starNumbers path, s ≠ [] ∧ '/' ∉ s :=
  forall_mem_starNumbers (by decide) fun _ hs hne => ⟨hne, fun hc => (mem_of_mem_split hs hc).2 rfl⟩

theorem isNumeric_tail_starNumbers (path : List Char) : ∀ s ∈ (starNumbers path).tail, isNumeric s = false := by
  rw [starNumbers]
  split
  · exact List.forall_mem_nil _
  · rw [List.tail_cons, List.forall_mem_map]
    intro t _
    split
    · decide
    · next ht => exact Bool.eq_false_iff.2 ht

/-- The segments of a path that is already in its final form stay as they are. -/
theorem starNumbers_pathOf_self (hne : ∀ s ∈ ss, s ≠ [] ∧ '/' ∉ s)
    (hnumber : ∀ s ∈ ss.tail, isNumeric s = false) : starNumbers (pathOf ss) = ss := by
  cases ss with
  | nil => rfl
  | cons s ss =>
    have hsegments : (split '/' (pathOf (s :: ss))).filter (· ≠ []) = s :: ss := by
      rw [split_pathOf (List.cons_ne_nil s ss) fun t ht => (hne t ht).2, List.filter_cons_of_neg (by simp),
        List.filter_eq_self]
      exact fun t ht => by simpa using (hne t ht).1
    rw [starNumbers, hsegments]
    exact congrArg (s :: ·) ((List.map_congr_left fun t ht => if_neg (by simp [hnumber t ht])).trans
      (List.map_id' ss))

theorem isCanonical_pathOf (hne : ∀ s ∈ ss, s ≠ [] ∧ '/' ∉ s) (hnumber : ∀ s ∈ ss.tail, isNumeric s = false)
    (hpath : IsPath (String.ofList (pathOf ss))) : IsCanonical (String.ofList (pathOf ss)) := by
  cases ss with
  | nil => exact ⟨hpath, .inl rfl, by decide⟩
  | cons s ss =>
    have hsplit : split '/' (String.ofList (pathOf (s :: ss))).toList = [] :: s :: ss := by
      rw [String.toList_ofList, split_pathOf (List.cons_ne_nil s ss) fun t ht => (hne t ht).2]
    refine ⟨hpath, .inr ?_, ?_⟩
    · rw [hsplit]
      exact fun t ht => (hne t ht).1
    · rw [hsplit]
      exact hnumber

/-! ### Compiling -/

theorem exists_parts_of_compile {text : String} {fallback : Verb} {e : Endpoint}
    (h : compile text fallback = .ok e) : ∃ path verb,
      parts (trim text.toList) (starPlaceholders (trim text.toList)) = .ok (path, verb) ∧
      e = ⟨String.ofList (pathOf (starNumbers path)), verb.getD fallback⟩ := by
  rw [compile] at h
  split at h
  · contradiction
  · obtain ⟨⟨path, verb⟩, hparts, h⟩ := bind_eq_ok.1 h
    cases h
    exact ⟨path, verb, hparts, rfl⟩

theorem trim_template {v : List Char} (hne : v ≠ []) (hv : trim v = v) :
    trim (pathOf ss ++ '?' :: Verb.queryOf v) = pathOf ss ++ '?' :: Verb.queryOf v := by
  have hlast : (pathOf ss ++ '?' :: Verb.queryOf v).getLast? = v.getLast? := by
    have hassoc : pathOf ss ++ '?' :: Verb.queryOf v = (pathOf ss ++ "?MT=".toList) ++ v := by
      simp [Verb.queryOf, Verb.param]
    rw [hassoc, List.getLast?_append_of_ne_nil _ hne]
  have hends : trim ([] ++ ((pathOf ss ++ '?' :: Verb.queryOf v) ++ [])) = pathOf ss ++ '?' :: Verb.queryOf v :=
    trim_append (List.forall_mem_nil _) (List.forall_mem_nil _) (by simp) (by rintro c ⟨⟩; decide)
      (hlast ▸ not_blank_of_trim hv)
  rwa [List.append_nil, List.nil_append] at hends

theorem starPlaceholders_template {v : List Char} (hplain : hasPlaceholder path = false) (hopen : '<' ∉ v)
    (hclose : '>' ∉ v) : starPlaceholders (path ++ '?' :: Verb.queryOf v) = path ++ '?' :: Verb.queryOf v := by
  refine starPlaceholders_eq_self ((hasPlaceholder_append_cons (by decide)).2 ⟨hplain, ?_, fun _ => ?_⟩)
  · exact hasPlaceholder_of_notMem (by simpa [Verb.queryOf, Verb.param] using hopen)
  · simpa [Verb.queryOf, Verb.param] using hclose

theorem typedVerb?_template {verb : Verb} (hnormal : verb.IsNormal) (hverb : verb.text ≠ "")
    (hamp : '&' ∉ verb.text.toList) (hquery : '?' ∉ path) :
    typedVerb? (path ++ '?' :: Verb.queryOf verb.text.toList) = some verb := by
  have hof : Verb.of verb.text.toList = verb := hnormal
  have hempty : verb.isEmpty = false := by simpa [Verb.isEmpty] using hverb
  rw [typedVerb?, cut?_append_cons hquery, Option.bind_some]
  dsimp only
  rw [Verb.find?_queryOf hamp, hof, Verb.filled, hempty, if_neg Bool.false_ne_true]

/-- A path without a placeholder, in front of a verb, is read as it is. -/
theorem compile_templateText {verb : Verb} (hnormal : verb.IsNormal) (hverb : verb.text ≠ "")
    (hchars : ∀ c ∈ verb.text.toList, c ≠ '&' ∧ c ≠ '<' ∧ c ≠ '>')
    (hquery : '?' ∉ pathOf ss) (hplain : hasPlaceholder (pathOf ss) = false)
    (hss : starNumbers (pathOf ss) = ss) (fallback : Verb) :
    compile (templateText (String.ofList (pathOf ss)) verb) fallback =
      .ok ⟨String.ofList (pathOf ss), verb⟩ := by
  have htext : (templateText (String.ofList (pathOf ss)) verb).toList =
      pathOf ss ++ '?' :: Verb.queryOf verb.text.toList := by
    simp [templateText, Verb.queryOf]
  have hne : verb.text.toList ≠ [] := by simpa using hverb
  have hfull : isFullUrl (pathOf ss ++ '?' :: Verb.queryOf verb.text.toList) = false := rfl
  rw [compile, htext, trim_template hne (Verb.isNormal_iff.1 hnormal).1, if_neg (by simp),
    starPlaceholders_template hplain (fun hc => (hchars _ hc).2.1 rfl) (fun hc => (hchars _ hc).2.2 rfl),
    bind_eq_ok]
  refine ⟨(pathOf ss, some verb), ?_, ?_⟩
  · rw [parts, hfull, if_neg Bool.false_ne_true, before_append_cons hquery,
      typedVerb?_template hnormal hverb (fun hc => (hchars _ hc).1 rfl) hquery]
  · dsimp only
    rw [hss]
    rfl

/-- An endpoint that compiles is in canonical form: its template is its path and its verb, its path has no empty
segment and no number behind its first segment, and the template compiles to the same endpoint again. -/
theorem compile_canonical {text : String} {letters : List Char} {e : Endpoint}
    (h : compile text (.of letters) = .ok e) :
    e.template = e.path ++ "?MT=" ++ e.verb.text ∧ IsCanonical e.path ∧
      (e.verb.text ≠ "" → (∀ c ∈ e.verb.text.toList, c ≠ '&' ∧ c ≠ '<' ∧ c ≠ '>') →
        ∀ fallback, compile e.template fallback = .ok e) := by
  have hpath := isPath_of_compile h
  have hnormal := isNormal_of_compile (Verb.isNormal_of letters) h
  refine ⟨templateText_eq e.path e.verb, ?_⟩
  obtain ⟨path, verb, hparts, rfl⟩ := exists_parts_of_compile h
  have hne := nonempty_starNumbers path
  have hnumber := isNumeric_tail_starNumbers path
  refine ⟨isCanonical_pathOf hne hnumber hpath, fun hverb hchars => ?_⟩
  have hquery : '?' ∉ pathOf (starNumbers path) := by
    have hno := hpath.no_query
    rwa [String.toList_ofList] at hno
  exact compile_templateText hnormal hverb hchars hquery
    (hasPlaceholder_starNumbers (hasPlaceholder_of_parts hparts)) (starNumbers_pathOf_self hne hnumber)

/-- Brackets without a placeholder, empty segments, a number, two question marks, and a verb of several words. -/
theorem compile_canonical_brackets :
    compile " a//20/<id>/<>/b<c?x?MT= put ? " (.of "get".toList) = .ok ⟨"/a/*/*/<>/b<c", ⟨"PUT ?"⟩⟩ ∧
      IsCanonical "/a/*/*/<>/b<c" ∧
      ∀ fallback, compile "/a/*/*/<>/b<c?MT=PUT ?" fallback = .ok ⟨"/a/*/*/<>/b<c", ⟨"PUT ?"⟩⟩ := by
  have h : compile " a//20/<id>/<>/b<c?x?MT= put ? " (.of "get".toList) =
      .ok ⟨"/a/*/*/<>/b<c", ⟨"PUT ?"⟩⟩ := by rfl
  obtain ⟨htemplate, hcanonical, hagain⟩ := compile_canonical h
  refine ⟨h, hcanonical, fun fallback => ?_⟩
  have hback := hagain (by decide) (forall_mem_of_all (by decide)) fallback
  rwa [htemplate] at hback

end Endpoint
end MockRedirect
