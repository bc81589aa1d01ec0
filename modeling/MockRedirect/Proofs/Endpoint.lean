import MockRedirect.Endpoint
import MockRedirect.Proofs.Address
/-! Endpoints as they are typed, and what is made of them: a path of plain segments and a verb of
capital letters, which are found again in the template. -/
namespace MockRedirect
open Text

/-! ### Verbs -/

theorem isAscii_of_isAsciiLetter {c : Char} (h : isAsciiLetter c = true) : c.toNat < 128 := by
  simp only [isAsciiLetter, Bool.or_eq_true] at h
  exact h.elim toNat_lt_of_isAsciiUpper toNat_lt_of_isAsciiLower

theorem letter_cases {c : Char} (h : isAsciiLetter c = true) :
    isAsciiUpper (upper c) = true ∧ isPlain c = true ∧ isAsciiLetter (upper c) = true :=
  of_ascii (p := fun c => isAsciiLetter c = true →
    isAsciiUpper (upper c) = true ∧ isPlain c = true ∧ isAsciiLetter (upper c) = true)
    (by decide +kernel) (isAscii_of_isAsciiLetter h) h

theorem upper_of_isAsciiUpper {c : Char} (h : isAsciiUpper c = true) : upper c = c :=
  of_ascii (p := fun c => isAsciiUpper c = true → upper c = c) (by decide +kernel)
    (toNat_lt_of_isAsciiUpper h) h

theorem isPlain_of_isAsciiUpper {c : Char} (h : isAsciiUpper c = true) : isPlain c = true :=
  (letter_cases (by simp [isAsciiLetter, h])).2.1

namespace Verb

/-- A verb of capital letters. -/
structure IsPlain (v : Verb) : Prop where
  nonempty : v.text.toList ≠ []
  upper : ∀ c ∈ v.text.toList, isAsciiUpper c = true

theorem isPlain_of {s : List Char} (hne : s ≠ []) (h : ∀ c ∈ s, isAsciiLetter c = true) :
    (of s).IsPlain := by
  have htrim : trim s = s := trim_of_not_blank fun c hc => (plain_cases (letter_cases (h c hc)).2.1).2.2.1
  constructor
  · simpa [of, htrim, uppercase] using hne
  · intro c hc
    simp only [of, htrim, uppercase, String.toList_ofList, List.mem_map] at hc
    obtain ⟨d, hd, rfl⟩ := hc
    exact (letter_cases (h d hd)).1

theorem IsPlain.letters {v : Verb} (h : v.IsPlain) :
    ∀ c ∈ v.text.toList, isAsciiLetter c = true := by
  intro c hc
  simp [isAsciiLetter, h.upper c hc]

theorem IsPlain.of_text {v : Verb} (h : v.IsPlain) : of v.text.toList = v := by
  have htrim : trim v.text.toList = v.text.toList :=
    trim_of_not_blank fun c hc => (plain_cases (isPlain_of_isAsciiUpper (h.upper c hc))).2.2.1
  have hupper : uppercase v.text.toList = v.text.toList :=
    (List.map_congr_left fun c hc => upper_of_isAsciiUpper (h.upper c hc)).trans (List.map_id' _)
  rw [of, htrim, hupper, String.ofList_toList]

theorem IsPlain.isEmpty {v : Verb} (h : v.IsPlain) : v.isEmpty = false := by
  have hne := h.nonempty
  simp_all [Verb.isEmpty]

theorem IsPlain.filled {v : Verb} (h : v.IsPlain) : v.filled = some v := by
  rw [Verb.filled, h.isEmpty, if_neg Bool.false_ne_true]

theorem filled_of_nil : (of []).filled = none := by decide

theorem isPlain_of_filled {s : List Char} {v : Verb} (h : ∀ c ∈ s, isAsciiLetter c = true)
    (hv : (of s).filled = some v) : v.IsPlain := by
  cases s with
  | nil => simp [filled_of_nil] at hv
  | cons c s =>
    have hp := isPlain_of (List.cons_ne_nil c s) h
    rw [hp.filled] at hv
    cases hv
    exact hp

/-- The text that carries a verb in a query. -/
def queryOf (v : List Char) : List Char := (param ++ "=").toList ++ v

theorem mem_queryOf {v : List Char} (h : ∀ c ∈ v, isAsciiLetter c = true) {c : Char}
    (hc : c ∈ queryOf v) : c = '=' ∨ isAsciiLetter c = true := by
  have hstart : ∀ c ∈ (param ++ "=").toList, c = '=' ∨ isAsciiLetter c = true :=
    forall_mem_of_all (by decide)
  exact (List.mem_append.1 hc).elim (hstart c) fun hv => Or.inr (h c hv)

/-- What reading does to other characters it does not do to those of a query for a verb. -/
theorem queryOf_cases {v : List Char} (h : ∀ c ∈ v, isAsciiLetter c = true) {c : Char}
    (hc : c ∈ queryOf v) :
    0x20 < c.toNat ∧ c.toNat < 128 ∧ c ∉ "#<?".toList ∧ isBlank c = false := by
  obtain rfl | hl := mem_queryOf h hc
  · decide
  · have hp := plain_cases (letter_cases hl).2.1
    have hsub : "#<?".toList ⊆ "/\\?#%<^&=|+".toList := by decide
    exact ⟨hp.2.2.2, isAscii_of_isAsciiLetter hl, fun hm => hp.2.1 (hsub hm), hp.2.2.1⟩

theorem isPlainQuery_queryOf {v : List Char} (h : ∀ c ∈ v, isAsciiLetter c = true) :
    Address.IsPlainQuery (some (queryOf v)) := by
  rintro q ⟨⟩ c hc
  obtain ⟨hlow, -, hmem, -⟩ := queryOf_cases h hc
  exact ⟨hlow, fun he => hmem (by simp [he])⟩

theorem value?_queryOf {path v : List Char} (h : ∀ c ∈ v, isAsciiLetter c = true) :
    Address.value? ⟨path, some (queryOf v)⟩ param.toList = some v := by
  have hq : queryOf v = param.toList ++ '=' :: v := rfl
  have hparam : ∀ c ∈ param.toList, c.toNat < 128 ∧ c ∉ "&=+%".toList :=
    forall_mem_of_all (by decide)
  have hsub : "&=+%".toList ⊆ "/\\?#%<^&=|+".toList := by decide
  rw [hq, Address.value?_of_plain]
  intro c hc
  obtain hc | hc := List.mem_append.1 hc
  · exact hparam c hc
  · have hp := (letter_cases (h c hc)).2.1
    exact ⟨isAscii_of_isPlain hp, fun hm => (plain_cases hp).2.1 (hsub hm)⟩

theorem verb?_queryOf {path v : List Char} (h : ∀ c ∈ v, isAsciiLetter c = true) :
    Address.verb? ⟨path, some (queryOf v)⟩ = (of v).filled := by
  rw [Address.verb?, value?_queryOf h, Option.bind_some]

theorem find?_queryOf {v : List Char} (hamp : '&' ∉ v) : find? (queryOf v) = (of v).filled := by
  cases v with
  | nil => decide
  | cons c v =>
    have hafter : after? (param ++ "=").toList (queryOf (c :: v)) = some (c :: v) :=
      after?_eq_some.2 rfl
    have hq : queryOf (c :: v) = 'M' :: 'T' :: '=' :: c :: v := rfl
    rw [hq] at hafter ⊢
    rw [find?, hafter]
    simp only [before_of_notMem hamp]
    rw [if_neg (List.cons_ne_nil c v)]

end Verb

/-! ### Typed endpoints -/

/-- A part of a path: a placeholder such as `<id>`, or a text that is no dot segment. -/
inductive TypedSegment where
  | placeholder (name : List Char) (nonempty : name ≠ [])
    (chars : ∀ c ∈ name, c ≠ '>' ∧ isBlank c = false)
  | literal (s : List Char) (nonempty : s ≠ []) (chars : ∀ c ∈ s, isUnreserved c = true)
    (no_dot : s ≠ ['.']) (no_dots : s ≠ ['.', '.'])

namespace TypedSegment

def text : TypedSegment → List Char
  | placeholder name _ _ => '<' :: name ++ ['>']
  | literal s .. => s

/-- The segment with a star for a placeholder. -/
def starred : TypedSegment → List Char
  | placeholder .. => ['*']
  | literal s .. => s

theorem isPlainSegment_starred (s : TypedSegment) : IsPlainSegment s.starred := by
  cases s with
  | placeholder name _ _ => exact ⟨by simp [starred, isPlain], by simp [starred], by simp [starred],
      by simp [starred]⟩
  | literal s hne hc hdot hdots => exact ⟨fun c h => by simp [isPlain, hc c h], hne, hdot, hdots⟩

theorem exists_text_eq_cons (s : TypedSegment) : ∃ c rest, s.text = c :: rest ∧ c ≠ '?' := by
  cases s with
  | placeholder name _ _ => exact ⟨'<', _, rfl, by decide⟩
  | literal s hne hc _ _ =>
    obtain ⟨c, cs, rfl⟩ := List.exists_cons_of_ne_nil hne
    exact ⟨c, cs, rfl, fun he => absurd (hc c List.mem_cons_self) (by rw [he]; decide)⟩

theorem not_blank (s : TypedSegment) : ∀ c ∈ s.text, isBlank c = false := by
  cases s with
  | placeholder name _ hc =>
    intro c h
    simp only [text, List.cons_append, List.mem_cons, List.mem_append, List.not_mem_nil, or_false] at h
    obtain rfl | h | rfl := h
    · decide
    · exact (hc c h).2
    · decide
  | literal s _ hc _ _ =>
    exact fun c h => (plain_cases (by simp [isPlain, hc c h])).2.2.1

end TypedSegment

/-- An endpoint as it is typed: an origin or none, a path, and a verb or none. -/
structure TypedEndpoint where
  origin : Option (Bool × List Char)
  segments : List TypedSegment
  verb : Option (List Char)
  host : ∀ o ∈ origin, Address.IsPlainHost o.2 ∧ ∀ c ∈ o.2, c ≠ '<' ∧ isBlank c = false
  path : segments ≠ []
  letters : ∀ v ∈ verb, ∀ c ∈ v, isAsciiLetter c = true

namespace TypedEndpoint

/-- The origin as it is typed. -/
def front (e : TypedEndpoint) : List Char :=
  match e.origin with
  | none => []
  | some (secure, host) => Address.originText secure host

def query (e : TypedEndpoint) : Option (List Char) := e.verb.map Verb.queryOf

def text (e : TypedEndpoint) : List Char :=
  e.front ++ (e.segments.flatMap fun s => '/' :: s.text) ++ queryText e.query

/-- The verb of the endpoint, unless none was typed. -/
def verb? (e : TypedEndpoint) : Option Verb := e.verb.bind fun v => (Verb.of v).filled

end TypedEndpoint

/-! ### Placeholders -/

namespace Endpoint

variable {s name : List Char}

theorem go_append_of_notMem (h : '<' ∉ s) (t : List Char) :
    starPlaceholders.go (s ++ t) 0 = s ++ starPlaceholders.go t 0 := by
  induction s with
  | nil => rfl
  | cons c s ih =>
    rw [List.mem_cons, not_or] at h
    rw [List.cons_append, starPlaceholders.go, if_neg (Ne.symm h.1), ih h.2]
    rfl

/-- Characters that are passed over leave nothing. -/
theorem go_append_of_length (s t : List Char) :
    starPlaceholders.go (s ++ t) s.length = starPlaceholders.go t 0 := by
  induction s with
  | nil => rfl
  | cons c s ih => exact ih

theorem placeholderLength?_append_cons (hne : name ≠ []) (hname : '>' ∉ name) (t : List Char) :
    placeholderLength? (name ++ '>' :: t) = some (name.length + 1) := by
  have hpos : 0 < name.length := List.length_pos_iff.2 hne
  have hlt : name.length < (name ++ '>' :: t).length := by simp
  rw [placeholderLength?, before_append_cons hname]
  simp only [hpos, hlt, decide_true, Bool.and_self, if_true]

theorem go_placeholder (hne : name ≠ []) (hname : '>' ∉ name) (t : List Char) :
    starPlaceholders.go ('<' :: name ++ ['>'] ++ t) 0 = '*' :: starPlaceholders.go t 0 := by
  have hskip := go_append_of_length (name ++ ['>']) t
  rw [List.append_assoc, List.length_append, List.length_singleton] at hskip
  rw [List.append_assoc, List.cons_append, starPlaceholders.go, if_pos rfl]
  simp only [List.singleton_append, placeholderLength?_append_cons hne hname] at hskip ⊢
  rw [hskip]

theorem go_segment (s : TypedSegment) (t : List Char) :
    starPlaceholders.go (s.text ++ t) 0 = s.starred ++ starPlaceholders.go t 0 := by
  cases s with
  | placeholder name hne hc => exact go_placeholder hne (fun hm => (hc _ hm).1 rfl) t
  | literal s _ hc _ _ =>
    exact go_append_of_notMem (fun hm => absurd (hc _ hm) (by decide)) t

theorem go_segments (ss : List TypedSegment) (t : List Char) :
    starPlaceholders.go ((ss.flatMap fun s => '/' :: s.text) ++ t) 0 =
      (ss.flatMap fun s => '/' :: s.starred) ++ starPlaceholders.go t 0 := by
  induction ss with
  | nil => rfl
  | cons s ss ih =>
    have hslash (u : List Char) :
        starPlaceholders.go ('/' :: u) 0 = '/' :: starPlaceholders.go u 0 :=
      go_append_of_notMem (s := ['/']) (by decide) u
    simp only [List.flatMap_cons, List.cons_append, List.append_assoc, hslash, go_segment, ih]

/-- The verb of a text is that of its query. -/
theorem typedVerb?_append_queryText (h : '?' ∉ s) (query : Option (List Char)) :
    typedVerb? (s ++ queryText query) = query.bind Verb.find? := by
  cases query with
  | none =>
    rw [queryText, List.append_nil, typedVerb?, cut?_of_notMem h]
    rfl
  | some q =>
    rw [queryText, typedVerb?, cut?_append_cons h]
    rfl

end Endpoint

theorem pathOf_eq_flatMap {ss : List (List Char)} (hne : ss ≠ []) :
    pathOf ss = ss.flatMap ('/' :: ·) := by
  induction ss with
  | nil => contradiction
  | cons s ss ih =>
    cases ss with
    | nil => simp [pathOf, join]
    | cons t ss =>
      have hj : pathOf (s :: t :: ss) = '/' :: s ++ pathOf (t :: ss) := by simp [pathOf, join]
      rw [hj, ih (List.cons_ne_nil t ss)]
      exact List.flatMap_cons.symm

theorem Address.originText_cases {secure : Bool} {host : List Char}
    (hhost : ∀ c ∈ host, c ≠ '<' ∧ isBlank c = false) {c : Char} (h : c ∈ originText secure host) :
    c ≠ '<' ∧ isBlank c = false := by
  have hscheme : ∀ c ∈ (if secure then "https".toList else "http".toList) ++ "://".toList,
      c ≠ '<' ∧ isBlank c = false := by
    cases secure <;> exact forall_mem_of_all (by decide)
  exact (List.mem_append.1 h).elim (hscheme c) (hhost c)

namespace TypedEndpoint

open Endpoint

variable (e : TypedEndpoint)

/-- The segments of the path with stars for the placeholders. -/
def starred : List (List Char) := e.segments.map TypedSegment.starred

theorem starred_ne_nil : e.starred ≠ [] := by simpa [starred] using e.path

theorem isPlainSegment_of_mem : ∀ s ∈ e.starred, IsPlainSegment s := by
  intro s hs
  obtain ⟨t, -, rfl⟩ := List.mem_map.1 hs
  exact t.isPlainSegment_starred

theorem text_ne_nil : e.text ≠ [] := by
  obtain ⟨s, ss, hs⟩ := List.exists_cons_of_ne_nil e.path
  simp [text, hs]

theorem front_cases {c : Char} (h : c ∈ e.front) : c ≠ '<' ∧ isBlank c = false := by
  unfold front at h
  split at h
  · exact absurd h List.not_mem_nil
  · next ho => exact Address.originText_cases (e.host _ ho).2 h

theorem query_cases {c : Char} (h : c ∈ queryText e.query) : c ≠ '<' ∧ isBlank c = false := by
  unfold query at h
  cases hv : e.verb with
  | none => simp [hv, queryText] at h
  | some v =>
    rw [hv] at h
    obtain rfl | hc := List.mem_cons.1 h
    · decide
    · obtain ⟨-, -, hmem, hblank⟩ := Verb.queryOf_cases (e.letters v hv) hc
      exact ⟨fun he => hmem (by simp [he]), hblank⟩

theorem not_blank : ∀ c ∈ e.text, isBlank c = false := by
  intro c hc
  simp only [text, List.mem_append, List.mem_flatMap, List.mem_cons] at hc
  obtain (hc | ⟨s, -, rfl | hc⟩) | hc := hc
  · exact (e.front_cases hc).2
  · decide
  · exact s.not_blank c hc
  · exact (e.query_cases hc).2

/-- Stars take the place of the placeholders, and all else stays as it is typed. -/
theorem starPlaceholders_text :
    starPlaceholders e.text = e.front ++ (pathOf e.starred ++ queryText e.query) := by
  have hfront : '<' ∉ e.front := fun h => (e.front_cases h).1 rfl
  have hquery : '<' ∉ queryText e.query := fun h => (e.query_cases h).1 rfl
  have hend := go_append_of_notMem hquery []
  rw [List.append_nil] at hend
  rw [starPlaceholders, text, List.append_assoc, go_append_of_notMem hfront, go_segments, hend,
    pathOf_eq_flatMap e.starred_ne_nil, starred, List.flatMap_map]
  simp [starPlaceholders.go]

/-! ### Reading -/

theorem isFullUrl_front {secure : Bool} {host : List Char} (tail : List Char) :
    isFullUrl (Address.originText secure host ++ tail) = true := by
  cases secure <;> rfl

theorem isPlainQuery : Address.IsPlainQuery e.query := by
  unfold query
  cases hv : e.verb with
  | none => exact nofun
  | some v => exact Verb.isPlainQuery_queryOf (e.letters v hv)

theorem verb?_address (path : List Char) : Address.verb? ⟨path, e.query⟩ = e.verb? := by
  unfold query verb?
  cases hv : e.verb with
  | none => rfl
  | some v => exact Verb.verb?_queryOf (e.letters v hv)

theorem not_mem_starred : '?' ∉ pathOf e.starred := by
  intro hc
  obtain he | hp := plain_of_mem_pathOf e.isPlainSegment_of_mem hc
  · exact absurd he (by decide)
  · exact absurd hp (by decide)

theorem typedVerb?_path : typedVerb? (pathOf e.starred ++ queryText e.query) = e.verb? := by
  rw [typedVerb?_append_queryText e.not_mem_starred, query, verb?]
  cases hv : e.verb with
  | none => rfl
  | some v => exact Verb.find?_queryOf fun hc => absurd (e.letters v hv _ hc) (by decide)

theorem before_path : before '?' (pathOf e.starred ++ queryText e.query) = pathOf e.starred :=
  before_append_queryText e.not_mem_starred e.query

/-- The host is one that a URL can have, if there is one. -/
def HasHost : Prop :=
  ∀ o ∈ e.origin, ∃ glued, Address.checkAuthority true o.2 true = .ok glued

/-- Whatever host stands in front, the path and the verb are read as they are typed. -/
theorem parts_eq_ok_iff {raw : List Char} {out : List Char × Option Verb} :
    Endpoint.parts raw (starPlaceholders e.text) = .ok out ↔
      e.HasHost ∧ out = (pathOf e.starred, e.verb?) := by
  rw [starPlaceholders_text, Endpoint.parts, HasHost]
  cases ho : e.origin with
  | none =>
    have hfront : e.front = [] := by simp [front, ho]
    have hfull : isFullUrl (pathOf e.starred ++ queryText e.query) = false := rfl
    rw [hfront, List.nil_append, hfull, if_neg Bool.false_ne_true, before_path, typedVerb?_path]
    simp [eq_comm (a := out)]
  | some o =>
    obtain ⟨secure, host⟩ := o
    have hfront : e.front = Address.originText secure host := by simp [front, ho]
    rw [hfront, isFullUrl_front, if_pos rfl,
      Address.read_origin (fun s hs => .inr (e.isPlainSegment_of_mem s hs).settled) e.isPlainQuery (e.host _ ho).1]
    cases hg : Address.checkAuthority true host true with
    | error fault => simp [Except.map, hg]
    | ok glued => simp [Except.map, hg, verb?_address, eq_comm (a := out)]

/-- The text of a path begins with a slash and something other than a query. -/
theorem exists_text_eq_cons (h : e.origin = none) :
    ∃ c rest, e.text = '/' :: c :: rest ∧ c ≠ '?' := by
  obtain ⟨s, ss, hs⟩ := List.exists_cons_of_ne_nil e.path
  obtain ⟨c, cs, hc, hne⟩ := s.exists_text_eq_cons
  exact ⟨c, _, by simp [text, front, h, hs, hc]; rfl, hne⟩

theorem isEndpoint_origin {secure : Bool} {host : List Char} (hne : host ≠ []) (tail : List Char)
    (hblank : (Address.originText secure host ++ tail).any isBlank = false) :
    isEndpoint (Address.originText secure host ++ tail) = true := by
  obtain ⟨c, cs, rfl⟩ := List.exists_cons_of_ne_nil hne
  unfold isEndpoint
  rw [hblank]
  cases secure <;> rfl

/-- What is typed has the shape of an endpoint. -/
theorem isEndpoint_text : isEndpoint e.text = true := by
  have hblank : e.text.any isBlank = false := by
    rw [List.any_eq_false]
    exact fun c hc => by simp [e.not_blank c hc]
  cases ho : e.origin with
  | none =>
    obtain ⟨c, rest, hc, hne⟩ := e.exists_text_eq_cons ho
    unfold isEndpoint
    rw [hblank, hc]
    simpa using hne
  | some o =>
    obtain ⟨secure, host⟩ := o
    have htext : e.text = Address.originText secure host ++
        ((e.segments.flatMap fun s => '/' :: s.text) ++ queryText e.query) := by
      simp [text, front, ho]
    rw [htext] at hblank ⊢
    exact isEndpoint_origin (e.host _ ho).1.nonempty _ hblank

end TypedEndpoint

/-! ### Compiled endpoints -/

namespace Endpoint

/-- An endpoint whose path and verb are found again in its template as they are. -/
structure IsPlain (ep : Endpoint) : Prop where
  path : ∃ ss, ss ≠ [] ∧ (∀ s ∈ ss, IsPlainSegment s) ∧ ep.path = String.ofList (pathOf ss)
  verb : ep.verb.IsPlain

/-- What holds of the star and of the pieces of a path holds of its segments when numbers become stars. -/
theorem forall_mem_starNumbers {P : List Char → Prop} {path : List Char} (hstar : P ['*'])
    (h : ∀ s ∈ split '/' path, s ≠ [] → P s) : ∀ s ∈ starNumbers path, P s := by
  have hpiece : ∀ s ∈ (split '/' path).filter (· ≠ []), P s := fun s hs =>
    h s (List.mem_filter.1 hs).1 (by simpa using (List.mem_filter.1 hs).2)
  rw [starNumbers]
  split
  · simp
  · next s ss heq =>
    rw [heq, List.forall_mem_cons] at hpiece
    rw [List.forall_mem_cons]
    refine ⟨hpiece.1, fun t ht => ?_⟩
    obtain ⟨u, hu, rfl⟩ := List.mem_map.1 ht
    split
    · exact hstar
    · exact hpiece.2 u hu

theorem split_pathOf {ss : List (List Char)} (hne : ss ≠ []) (h : ∀ s ∈ ss, '/' ∉ s) :
    split '/' (pathOf ss) = [] :: ss := by
  rw [pathOf, split, if_pos rfl, split_join hne h]

theorem isPlainSegment_star : IsPlainSegment ['*'] := ⟨by simp [isPlain], by simp, by simp, by simp⟩

/-- Numbers become stars, which are plain too. -/
theorem starNumbers_pathOf {ss : List (List Char)} (hne : ss ≠ []) (h : ∀ s ∈ ss, IsPlainSegment s) :
    starNumbers (pathOf ss) ≠ [] ∧ ∀ s ∈ starNumbers (pathOf ss), IsPlainSegment s := by
  have hsplit : split '/' (pathOf ss) = [] :: ss :=
    split_pathOf hne fun s hs hc => absurd ((h s hs).plain _ hc) (by decide)
  constructor
  · have hfilter : (split '/' (pathOf ss)).filter (· ≠ []) = ss := by
      rw [hsplit, List.filter_cons_of_neg (by simp), List.filter_eq_self]
      exact fun s hs => by simpa using (h s hs).nonempty
    obtain ⟨s, ss, rfl⟩ := List.exists_cons_of_ne_nil hne
    rw [starNumbers, hfilter]
    exact List.cons_ne_nil _ _
  · refine forall_mem_starNumbers isPlainSegment_star fun s hs hs' => ?_
    rw [hsplit] at hs
    exact h s ((List.mem_cons.1 hs).resolve_left hs')

/-- What an endpoint is compiled to if its host is accepted. -/
theorem compile_eq_ok_iff {e : TypedEndpoint} {fallback : Verb} {ep : Endpoint} :
    compile (String.ofList e.text) fallback = .ok ep ↔ e.HasHost ∧
      ep = ⟨String.ofList ('/' :: join ['/'] (starNumbers (pathOf e.starred))),
        e.verb?.getD fallback⟩ := by
  rw [compile, String.toList_ofList, trim_of_not_blank e.not_blank, if_neg e.text_ne_nil, bind_eq_ok]
  simp only [e.parts_eq_ok_iff]
  constructor
  · rintro ⟨_, ⟨hhost, rfl⟩, h⟩
    cases h
    exact ⟨hhost, rfl⟩
  · rintro ⟨hhost, rfl⟩
    exact ⟨_, ⟨hhost, rfl⟩, rfl⟩

/-- What is typed becomes a plain endpoint. -/
theorem isPlain_of_compile {e : TypedEndpoint} {letters : List Char} {ep : Endpoint}
    (hne : letters ≠ []) (hl : ∀ c ∈ letters, isAsciiLetter c = true)
    (h : compile (String.ofList e.text) (.of letters) = .ok ep) : ep.IsPlain := by
  obtain ⟨-, rfl⟩ := compile_eq_ok_iff.1 h
  have hstar := starNumbers_pathOf e.starred_ne_nil e.isPlainSegment_of_mem
  refine ⟨⟨_, hstar.1, hstar.2, rfl⟩, ?_⟩
  cases hv : e.verb? with
  | none => exact Verb.isPlain_of hne hl
  | some v =>
    obtain ⟨w, hw, hf⟩ := Option.bind_eq_some_iff.1 hv
    exact Verb.isPlain_of_filled (e.letters w hw) hf

variable {ep : Endpoint}

/-- An endpoint whose path is in its final form, whatever its characters, and whose verb is a plain one. -/
structure IsResolved (ep : Endpoint) : Prop where
  path : ∃ ss, (∀ s ∈ ss, IsSettled s) ∧ ep.path = String.ofList (pathOf ss)
  verb : ep.verb.IsPlain

theorem IsPlain.resolved (h : ep.IsPlain) : ep.IsResolved where
  path := by
    obtain ⟨ss, -, hss, hpath⟩ := h.path
    exact ⟨ss, fun s hs => (hss s hs).settled, hpath⟩
  verb := h.verb

theorem toList_template (ep : Endpoint) :
    ep.template.toList = ep.path.toList ++ queryText (some (Verb.queryOf ep.verb.text.toList)) := by
  simp [template, templateText, Verb.queryOf, queryText]

/-- Path and verb are found again in the template. -/
theorem IsResolved.splitTemplate (h : ep.IsResolved) :
    splitTemplate ep.template = (ep.path, some ep.verb) := by
  obtain ⟨ss, hss, hpath⟩ := h.path
  rw [Endpoint.splitTemplate, toList_template, hpath, String.toList_ofList,
    Address.read_pathOf hss (Verb.isPlainQuery_queryOf h.verb.letters)]
  simp only [Verb.verb?_queryOf h.verb.letters, h.verb.of_text, h.verb.filled]

/-- The template is read and written as it is: it is ASCII without blanks. -/
theorem IsResolved.template_cases (h : ep.IsResolved) {c : Char} (hc : c ∈ ep.template.toList) :
    c.toNat < 128 ∧ isBlank c = false := by
  obtain ⟨ss, hss, hpath⟩ := h.path
  rw [toList_template, hpath, String.toList_ofList] at hc
  obtain hc | hc := List.mem_append.1 hc
  · obtain rfl | ⟨s, hs, hc⟩ := mem_pathOf hc
    · decide
    · have hkept := ((hss s hs).kept c hc).1
      exact ⟨Address.isAscii_of_keepsSegment hkept, (Address.keeps_cases hkept).2.2.2.1⟩
  · obtain rfl | hc := List.mem_cons.1 hc
    · decide
    · obtain ⟨-, hascii, -, hblank⟩ := Verb.queryOf_cases h.verb.letters hc
      exact ⟨hascii, hblank⟩

end Endpoint

end MockRedirect
