import MockRedirect.Proofs.Query
/-! Full URLs and paths are read by different readers. Their paths are the same, and so are their verbs as long as
the parameter that is called like that of the verb is the first one with such an ending and a value: a path is
searched for the ending, a full URL for the name. -/
namespace MockRedirect
open Text

/-! ### Bare characters -/

/-- A letter, a digit, `-`, `_` or `~`. -/
def isBare (c : Char) : Bool := isUnreserved c && c != '.'

theorem isPlain_of_isBare {c : Char} (h : isBare c = true) : isPlain c = true := by
  rw [isBare, Bool.and_eq_true] at h
  rw [isPlain, h.1, Bool.true_or]

/-- What reading does to other characters it does not do to bare ones. -/
theorem bare_cases {c : Char} (h : isBare c = true) :
    c ∉ "/\\?#%<^&=|+".toList ∧ isBlank c = false ∧ 0x20 < c.toNat :=
  (plain_cases (isPlain_of_isBare h)).2

/-! ### Parameters -/

/-- A name and a value of bare characters. -/
structure Param where
  name : List Char
  value : List Char
  bare : ∀ c ∈ name ++ value, isBare c = true

namespace Param

def text (p : Param) : List Char := p.name ++ '=' :: p.value

def verb? (p : Param) : Option Verb := (Verb.of p.value).filled

variable (p : Param)

theorem bare_name {c : Char} (h : c ∈ p.name) : isBare c = true := p.bare c (List.mem_append_left _ h)

theorem bare_value {c : Char} (h : c ∈ p.value) : isBare c = true := p.bare c (List.mem_append_right _ h)

theorem mem_text {c : Char} (h : c ∈ p.text) : c = '=' ∨ isBare c = true := by
  obtain h | h := List.mem_append.1 h
  · exact .inr (p.bare_name h)
  · exact (List.mem_cons.1 h).imp_right p.bare_value

theorem notMem_text : '&' ∉ p.text := fun h => (p.mem_text h).elim (by decide) (by decide)

end Param

/-- The verb of the first parameter that is called like that of the verb. -/
def namedVerb? (ps : List Param) : Option Verb := (ps.find? (·.name = Verb.param.toList)).bind Param.verb?

/-- The verb of the first parameter whose name ends like that of the verb, and that has a value. -/
def endingVerb? (ps : List Param) : Option Verb :=
  ps.findSome? fun p => if Verb.param.toList <:+ p.name then p.verb? else none

theorem namedVerb?_cons (p : Param) (ps : List Param) :
    namedVerb? (p :: ps) = if p.name = Verb.param.toList then p.verb? else namedVerb? ps := by
  rw [namedVerb?, List.find?_cons]
  by_cases hname : p.name = Verb.param.toList
  · simp [hname]
  · simp [hname, namedVerb?]

theorem endingVerb?_cons (p : Param) (ps : List Param) : endingVerb? (p :: ps) =
    (if Verb.param.toList <:+ p.name then p.verb? else none).or (endingVerb? ps) := by
  rw [endingVerb?, List.findSome?_cons, ← endingVerb?]
  cases (if Verb.param.toList <:+ p.name then p.verb? else none) <;> rfl

/-- The parameters as a query. -/
def paramText (ps : List Param) : List Char := join ['&'] (ps.map Param.text)

theorem paramText_cons_cons (p q : Param) (ps : List Param) :
    paramText (p :: q :: ps) = p.text ++ '&' :: paramText (q :: ps) := by
  simp [paramText, join]

theorem mem_paramText {ps : List Param} {c : Char} (h : c ∈ paramText ps) : c = '&' ∨ c = '=' ∨ isBare c = true := by
  obtain h | ⟨_, hs, hc⟩ := mem_join h
  · exact .inl h
  · obtain ⟨p, -, rfl⟩ := List.mem_map.1 hs
    exact .inr (p.mem_text hc)

/-- Where every ending is the name, and has a value, both verbs are the same. -/
theorem namedVerb?_eq_endingVerb? {ps : List Param}
    (h : ∀ p ∈ ps, Verb.param.toList <:+ p.name → p.name = Verb.param.toList ∧ p.value ≠ []) :
    namedVerb? ps = endingVerb? ps := by
  induction ps with
  | nil => rfl
  | cons p ps ih =>
    rw [List.forall_mem_cons] at h
    rw [namedVerb?_cons, endingVerb?_cons, ih h.2]
    by_cases hends : Verb.param.toList <:+ p.name
    · obtain ⟨hname, hvalue⟩ := h.1 hends
      have hverb : p.verb? = some (.of p.value) := Verb.filled_of hvalue fun c hc => (bare_cases (p.bare_value hc)).2.1
      rw [if_pos hname, if_pos hends, hverb, Option.some_or]
    · have hname : p.name ≠ Verb.param.toList := fun he => hends (he ▸ List.suffix_refl _)
      rw [if_neg hname, if_neg hends, Option.none_or]

/-! ### Searching for an ending -/

namespace Verb

variable {s name v : List Char}

theorem find?_of_notMem (h : '=' ∉ s) : find? s = none := by
  induction s with
  | nil => rfl
  | cons c s ih =>
    have hafter : after? (param ++ "=").toList (c :: s) = none := by
      rw [Option.eq_none_iff_forall_ne_some]
      intro r hr
      rw [after?_eq_some.1 hr] at h
      exact h (List.mem_append_left _ (by decide))
    rw [find?, hafter]
    exact ih fun hc => h (List.mem_cons_of_mem _ hc)

/-- What is searched for begins where the name begins. -/
theorem after?_pair (hname : '=' ∉ name) (v : List Char) :
    after? (param ++ "=").toList (name ++ '=' :: v) = if name = param.toList then some v else none := by
  split
  · next he =>
    rw [he]
    exact after?_eq_some.2 rfl
  · next hne =>
    rw [Option.eq_none_iff_forall_ne_some]
    intro r hr
    have hcut := cut?_append_cons hname v
    rw [after?_eq_some.1 hr] at hcut
    have hcut' : cut? '=' (param.toList ++ '=' :: r) = some (param.toList, r) := cut?_append_cons (by decide) r
    cases hcut'.symm.trans hcut
    exact hne rfl

/-- In a parameter the search finds the value, if the name ends with that of the verb. -/
theorem find?_pair (hname : '=' ∉ name) (hv : '=' ∉ v ∧ '&' ∉ v) :
    find? (name ++ '=' :: v) = if param.toList <:+ name then (of v).filled else none := by
  induction name with
  | nil =>
    have hafter := after?_pair hname v
    rw [List.nil_append, if_neg (by decide)] at hafter
    rw [List.nil_append, find?, hafter, if_neg (by decide)]
    exact find?_of_notMem hv.1
  | cons c name ih =>
    have hrest := ih fun hc => hname (List.mem_cons_of_mem _ hc)
    have hafter := after?_pair hname v
    rw [List.cons_append] at hafter ⊢
    rw [find?, hafter]
    by_cases he : c :: name = param.toList
    · -- the rest of the name is too short to be searched for
      have hshort : ¬param.toList <:+ name := by
        obtain ⟨-, rfl⟩ := List.cons.inj he
        decide
      rw [if_neg hshort] at hrest
      simp only [he, List.suffix_refl, if_true, before_of_notMem hv.2, hrest]
      split
      · next hempty => rw [hempty, filled_of_nil]
      · rfl
    · simp only [if_neg he, List.suffix_cons_iff, Ne.symm he, false_or]
      exact hrest

end Verb

theorem find?_paramText (ps : List Param) : Verb.find? (paramText ps) = endingVerb? ps := by
  have hparam (p : Param) : Verb.find? p.text = if Verb.param.toList <:+ p.name then p.verb? else none :=
    Verb.find?_pair (fun hc => absurd (p.bare_name hc) (by decide))
      ⟨fun hc => absurd (p.bare_value hc) (by decide), fun hc => absurd (p.bare_value hc) (by decide)⟩
  induction ps with
  | nil => rfl
  | cons p ps ih =>
    rw [endingVerb?_cons, ← hparam]
    cases ps with
    | nil => exact Option.or_none.symm
    | cons q ps =>
      have hblank : ∀ c ∈ p.text, isBlank c = false := fun c hc =>
        (p.mem_text hc).elim (fun he => he ▸ by decide) fun hb => (bare_cases hb).2.1
      rw [paramText_cons_cons, Verb.find?_append p.notMem_text hblank, ih]

/-! ### Looking for a name -/

namespace Address

theorem pairs_text (p : Param) : pairs p.text = [(p.name, p.value)] := by
  refine pairs_pair fun c hc => ?_
  have hsub : "&=+%".toList ⊆ "/\\?#%<^&=|+".toList := by decide
  have hbare := p.bare c hc
  exact ⟨isAscii_of_isPlain (isPlain_of_isBare hbare), fun hmem => (bare_cases hbare).1 (hsub hmem)⟩

theorem pairs_paramText (ps : List Param) : pairs (paramText ps) = ps.map fun p => (p.name, p.value) := by
  induction ps with
  | nil => rfl
  | cons p ps ih =>
    cases ps with
    | nil => exact pairs_text p
    | cons q ps =>
      rw [paramText_cons_cons, pairs_append_cons p.notMem_text, ih, pairs_text]
      rfl

theorem verb?_paramText (path : List Char) (ps : List Param) : verb? ⟨path, some (paramText ps)⟩ = namedVerb? ps := by
  rw [verb?, value?]
  simp only [Option.bind_eq_bind, Option.bind_some, pairs_paramText, List.find?_map, Option.map_eq_bind,
    Option.bind_assoc]
  rfl

end Address

/-! ### Endpoints -/

/-- A scheme and a host that a URL can have. -/
structure Origin where
  secure : Bool
  host : List Char
  plain : Address.IsPlainHost host
  chars : ∀ c ∈ host, c ≠ '<' ∧ isBlank c = false
  accepted : ∃ glued, Address.checkAuthority true host true = .ok glued

def Origin.text (o : Origin) : List Char := Address.originText o.secure o.host

/-- A path of bare characters and stars, whose segments may be empty, and parameters or none. -/
structure BareEndpoint where
  segments : List (List Char)
  params : Option (List Param)
  bare : ∀ s ∈ segments, ∀ c ∈ s, isBare c = true ∨ c = '*'

namespace BareEndpoint

variable (e : BareEndpoint)

def query : Option (List Char) := e.params.map paramText

def text : List Char := pathOf e.segments ++ queryText e.query

/-- The path with stars for its numbers, and without its empty segments. -/
def compiledPath : String := String.ofList (pathOf (Endpoint.starNumbers (pathOf e.segments)))

theorem settled : ∀ s ∈ e.segments, Address.SettledOrEmpty s := by
  intro s hs
  by_cases hne : s = []
  · exact .inl hne
  · have hdot : '.' ∉ s := fun hc => (e.bare s hs _ hc).elim (by decide) (by decide)
    have hplain : ∀ c ∈ s, isPlain c = true := by
      intro c hc
      obtain hc | rfl := e.bare s hs c hc
      · exact isPlain_of_isBare hc
      · decide
    exact .inr (IsPlainSegment.settled ⟨hplain, hne, fun he => hdot (by simp [he]), fun he => hdot (by simp [he])⟩)

theorem isPlainQuery : Address.IsPlainQuery e.query := by
  intro q hq c hc
  obtain ⟨ps, -, rfl⟩ := Option.map_eq_some_iff.1 hq
  obtain rfl | rfl | hb := mem_paramText hc
  · decide
  · decide
  · obtain ⟨hmem, -, hhigh⟩ := bare_cases hb
    exact ⟨hhigh, fun he => hmem (by simp [he])⟩

theorem not_mem_path : '?' ∉ pathOf e.segments := fun hc => (Address.path_cases e.settled hc).1 rfl

theorem text_cases {c : Char} (h : c ∈ e.text) : c ≠ '<' ∧ isBlank c = false := by
  have hbare {c : Char} (hc : isBare c = true) : c ≠ '<' ∧ isBlank c = false := by
    obtain ⟨hmem, hblank, -⟩ := bare_cases hc
    exact ⟨fun he => hmem (by simp [he]), hblank⟩
  rw [text, query] at h
  obtain h | h := List.mem_append.1 h
  · obtain rfl | ⟨s, hs, hc⟩ := mem_pathOf h
    · decide
    · obtain hc | rfl := e.bare s hs c hc
      · exact hbare hc
      · decide
  · cases hp : e.params with
    | none => simp [hp, queryText] at h
    | some ps =>
      rw [hp] at h
      obtain rfl | h := List.mem_cons.1 h
      · decide
      · obtain rfl | rfl | hc := mem_paramText h
        · decide
        · decide
        · exact hbare hc

/-! ### Compiling -/

/-- As a path alone, the endpoint is searched for the ending. -/
theorem parts_text : Endpoint.parts e.text e.text = .ok (pathOf e.segments, e.params.bind endingVerb?) := by
  have hfull : Endpoint.isFullUrl e.text = false := rfl
  have hverb : Endpoint.typedVerb? e.text = e.params.bind endingVerb? := by
    rw [text, Endpoint.typedVerb?_append_queryText e.not_mem_path, query, Option.bind_map]
    exact congrArg e.params.bind (funext find?_paramText)
  rw [Endpoint.parts, hfull, if_neg Bool.false_ne_true, hverb, text, before_append_queryText e.not_mem_path]

/-- Behind an origin, the name is looked for. -/
theorem parts_origin (o : Origin) : Endpoint.parts (o.text ++ e.text) (o.text ++ e.text) =
    .ok (pathOf e.segments, e.params.bind namedVerb?) := by
  obtain ⟨glued, hglued⟩ := o.accepted
  have hread : Address.read false (o.text ++ e.text) = .ok ⟨pathOf e.segments, e.query⟩ := by
    rw [Origin.text, text, Address.read_origin e.settled e.isPlainQuery o.plain, hglued]
    rfl
  have hverb : Address.verb? ⟨pathOf e.segments, e.query⟩ = e.params.bind namedVerb? := by
    rw [query]
    cases e.params with
    | none => rfl
    | some ps => exact Address.verb?_paramText _ ps
  have hfull : Endpoint.isFullUrl (o.text ++ e.text) = true := TypedEndpoint.isFullUrl_front e.text
  rw [Endpoint.parts, if_pos hfull, hread]
  simp only [hverb]

end BareEndpoint

/-- Verbs that every fallback takes the place of alike are the same. -/
theorem Verb.eq_of_getD {a b : Option Verb} (h : ∀ fallback, a.getD fallback = b.getD fallback) : a = b := by
  have hne : (⟨"A"⟩ : Verb) ≠ ⟨"B"⟩ := by decide
  cases a with
  | none =>
    cases b with
    | none => rfl
    | some w => exact absurd ((h ⟨"A"⟩).trans (h ⟨"B"⟩).symm) hne
  | some v =>
    cases b with
    | none => exact absurd ((h ⟨"A"⟩).symm.trans (h ⟨"B"⟩)) hne
    | some w => exact congrArg some (h .get)

namespace Endpoint

/-- A text without blanks and placeholders is compiled as it is typed. -/
theorem compile_of_parts {s path : List Char} {verb : Option Verb} (hne : s ≠ [])
    (hs : ∀ c ∈ s, c ≠ '<' ∧ isBlank c = false) (hparts : parts s s = .ok (path, verb)) (fallback : Verb) :
    compile (String.ofList s) fallback = .ok ⟨String.ofList (pathOf (starNumbers path)), verb.getD fallback⟩ := by
  have hstar : starPlaceholders s = s := by
    have happend := starPlaceholders_append_of_notMem (fun hc => (hs _ hc).1 rfl) []
    rwa [List.append_nil, show starPlaceholders [] = [] from rfl, List.append_nil] at happend
  rw [compile, String.toList_ofList, trim_of_not_blank fun c hc => (hs c hc).2, if_neg hne, hstar, hparts]
  rfl

/-- Whether its origin is typed or not, an endpoint is compiled to the same path. The verb is the same for every
fallback exactly if the first parameter that is called like that of the verb, and the first one with such an ending
and a value, have the same verb. -/
theorem compile_alike (o : Origin) (e : BareEndpoint) :
    (∀ fallback,
      compile (String.ofList (o.text ++ e.text)) fallback =
        .ok ⟨e.compiledPath, (e.params.bind namedVerb?).getD fallback⟩ ∧
      compile (String.ofList e.text) fallback = .ok ⟨e.compiledPath, (e.params.bind endingVerb?).getD fallback⟩) ∧
    ((∀ fallback, compile (String.ofList (o.text ++ e.text)) fallback = compile (String.ofList e.text) fallback) ↔
      e.params.bind namedVerb? = e.params.bind endingVerb?) ∧
    ((∀ ps ∈ e.params, ∀ p ∈ ps, Verb.param.toList <:+ p.name → p.name = Verb.param.toList ∧ p.value ≠ []) →
      e.params.bind namedVerb? = e.params.bind endingVerb?) := by
  have hne : e.text ≠ [] := List.cons_ne_nil _ _
  have hchars : ∀ c ∈ o.text ++ e.text, c ≠ '<' ∧ isBlank c = false := fun c hc =>
    (List.mem_append.1 hc).elim (Address.originText_cases o.chars) e.text_cases
  have hfull := compile_of_parts (List.append_ne_nil_of_right_ne_nil o.text hne) hchars (e.parts_origin o)
  have htyped := compile_of_parts hne (fun c => e.text_cases) e.parts_text
  refine ⟨fun fallback => ⟨hfull fallback, htyped fallback⟩, ?_, ?_⟩
  · simp only [hfull, htyped, Except.ok.injEq, Endpoint.mk.injEq, true_and]
    exact ⟨Verb.eq_of_getD, fun he fallback => congrArg (·.getD fallback) he⟩
  · intro h
    cases hp : e.params with
    | none => rfl
    | some ps => exact namedVerb?_eq_endingVerb? (h ps hp)

/-- `http://host` -/
def plainOrigin : Origin where
  secure := false
  host := "host".toList
  plain := ⟨by decide, forall_mem_of_all (by decide)⟩
  chars := forall_mem_of_all (by decide)
  accepted := ⟨[], rfl⟩

/-- `/a//20?x=1&MT=put` -/
def numberEndpoint : BareEndpoint where
  segments := ["a".toList, [], "20".toList]
  params := some [⟨"x".toList, "1".toList, forall_mem_of_all (by decide)⟩,
    ⟨"MT".toList, "put".toList, forall_mem_of_all (by decide)⟩]
  bare := by
    simp only [List.forall_mem_cons]
    exact ⟨forall_mem_of_all (by decide), List.forall_mem_nil _, forall_mem_of_all (by decide), List.forall_mem_nil _⟩

theorem compile_alike_number : compile "/a//20?x=1&MT=put" .get = .ok ⟨"/a/*", ⟨"PUT"⟩⟩ ∧ ∀ fallback,
    compile "http://host/a//20?x=1&MT=put" fallback = compile "/a//20?x=1&MT=put" fallback := by
  obtain ⟨hcompile, halike, -⟩ := compile_alike plainOrigin numberEndpoint
  exact ⟨(hcompile .get).2, halike.2 (by rfl)⟩

/-- The name of a parameter that only ends like that of the verb gives a path its verb, and a full URL none. -/
theorem not_compile_alike_suffix :
    compile "http://host/a?XMT=PUT" .get = .ok ⟨"/a", .get⟩ ∧ compile "/a?XMT=PUT" .get = .ok ⟨"/a", ⟨"PUT"⟩⟩ ∧
      compile "http://host/a?XMT=PUT" .get ≠ compile "/a?XMT=PUT" .get := by
  have hfull : compile "http://host/a?XMT=PUT" .get = .ok ⟨"/a", .get⟩ := by rfl
  have htyped : compile "/a?XMT=PUT" .get = .ok ⟨"/a", ⟨"PUT"⟩⟩ := by rfl
  refine ⟨hfull, htyped, ?_⟩
  rw [hfull, htyped, ne_eq, Except.ok.injEq]
  decide

end Endpoint
end MockRedirect
