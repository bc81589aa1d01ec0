import MockRedirect.Proofs.Preserve
import MockRedirect.Proofs.Query
/-! A change of the verb rewrites the endpoint as typed and the template, each in its own way. Where nothing
in front of the verb is taken for one, and the path is written as it is resolved, the two stay in step. -/
namespace MockRedirect
open Text

/-! ### Endpoints that are typed in a steady way -/

namespace Endpoint

/-- The query of a text as it is typed. -/
def typedQuery? (s : List Char) : Option (List Char) := (cut? '?' s).map (·.2)

/-- The parts of a typed query that stand before its verb. -/
def typedLead (s : List Char) : List (List Char) := lead ((typedQuery? s).getD [])

/-- A path as it is resolved, and no verb before the one that is replaced. -/
structure IsSteadyPath (s : List Char) : Prop where
  path : ∀ p ∈ split '/' (starPlaceholders (before '?' s)), Address.SettledOrEmpty p
  lead : ∀ p ∈ typedLead s, Verb.find? (starPlaceholders p) = none

/-- A URL whose query, if it is read at all, has no verb before the one that is replaced. -/
structure IsSteadyUrl (s : List Char) : Prop where
  front : ∀ c ∈ before '?' s, c ≠ '#' ∧ 0x20 < c.toNat
  lead : ∀ p ∈ typedLead s, '#' ∉ p ∧
    Address.value? ⟨[], some (starPlaceholders p)⟩ Verb.param.toList = none

/-- An endpoint that still says the same when another verb is put into its query. -/
structure IsSteady (s : List Char) : Prop where
  endpoint : isEndpoint s = true
  /-- No placeholder reaches from the path, or from a part of the query, over its end. -/
  closed : (∀ p ∈ before '?' s :: typedLead s, ¬IsOpen p) ∨ '>' ∉ (typedQuery? s).getD []
  kind : if isFullUrl s then IsSteadyUrl s else IsSteadyPath s

variable {s : List Char} {v : Verb}

theorem append_typedQuery? (s : List Char) : before '?' s ++ queryText (typedQuery? s) = s := by
  by_cases hq : '?' ∈ s
  · obtain ⟨a, b, rfl, ha⟩ := List.eq_append_cons_of_mem hq
    rw [typedQuery?, cut?_append_cons ha, before_append_cons ha]
    rfl
  · rw [typedQuery?, cut?_of_notMem hq, before_of_notMem hq]
    exact List.append_nil s

theorem mem_of_mem_typedQuery {c : Char} (h : c ∈ (typedQuery? s).getD []) : c ∈ s := by
  rw [← append_typedQuery? s]
  cases hq : typedQuery? s with
  | none => simp [hq] at h
  | some q =>
    rw [hq] at h
    exact List.mem_append_right _ (List.mem_cons_of_mem _ h)

theorem mem_of_mem_typedLead {p : List Char} (hp : p ∈ typedLead s) {c : Char} (hc : c ∈ p) :
    c ∈ s ∧ c ≠ '&' :=
  (mem_of_mem_lead hp hc).imp_left mem_of_mem_typedQuery

theorem isEndpoint_cases (h : isEndpoint s = true) : (∀ c ∈ s, isBlank c = false) ∧
    ((∃ c t, s = '/' :: c :: t ∧ c ≠ '?') ∨
      ∃ secure t, t ≠ [] ∧ s = Address.originText secure t) := by
  have hstart (secure : Bool) (h : (after? ((if secure then "https".toList else "http".toList) ++
      "://".toList) s).any (· ≠ []) = true) : ∃ secure t, t ≠ [] ∧ s = Address.originText secure t := by
    obtain ⟨t, ht, hne⟩ := (Option.any_eq_true ..).1 h
    exact ⟨secure, t, by simpa using hne, after?_eq_some.1 ht⟩
  unfold isEndpoint at h
  rw [Bool.and_eq_true] at h
  obtain ⟨hblank, hform⟩ := h
  refine ⟨by simpa using hblank, ?_⟩
  split at hform
  · next c t => exact .inl ⟨c, t, rfl, of_decide_eq_true hform⟩
  · right
    simp only [List.any_cons, List.any_nil, Bool.or_false, Bool.or_eq_true] at hform
    exact hform.elim (hstart false) (hstart true)

theorem toList_withVerb_join (url : String) (v : Verb) : (withVerb url v).toList =
    before '?' url.toList ++ '?' :: join ['&'] (verbParts v ((typedQuery? url.toList).getD [])) := by
  rw [withVerb, typedQuery?]
  cases cut? '?' url.toList <;> simp

/-- The text with another verb in it: the parts before the verb, the verb, and further parts. -/
theorem toList_withVerb (url : String) (v : Verb) : ∃ rest : List (List Char), (withVerb url v).toList =
      before '?' url.toList ++ '?' :: ((typedLead url.toList).flatMap (· ++ ['&']) ++
        (Verb.queryOf v.text.toList ++ rest.flatMap ('&' :: ·))) ∧
      ∀ p ∈ rest, ∀ c ∈ p, c ∈ (typedQuery? url.toList).getD [] ∨ c ∈ Verb.queryOf v.text.toList := by
  obtain ⟨rest, hparts, hrest⟩ := exists_verbParts v ((typedQuery? url.toList).getD [])
  refine ⟨rest, ?_, hrest⟩
  rw [toList_withVerb_join, hparts, join_append_cons]
  rfl

/-- Stars take the place of the placeholders in the path and in the query, each on its own. -/
theorem IsSteady.starPlaceholders_text (h : IsSteady s) : starPlaceholders s =
    starPlaceholders (before '?' s) ++ queryText ((typedQuery? s).map starPlaceholders) := by
  have hclosed : ¬IsOpen (before '?' s) ∨ '>' ∉ (typedQuery? s).getD [] :=
    h.closed.imp_left fun h => h _ List.mem_cons_self
  conv_lhs => rw [← append_typedQuery? s]
  cases hq : typedQuery? s with
  | none => simp [queryText]
  | some q =>
    rw [hq] at hclosed
    have hnext : ¬IsOpen (before '?' s) ∨ '>' ∉ '?' :: q := hclosed.imp_right fun h => by simpa using h
    rw [queryText, starPlaceholders_append hnext, starPlaceholders_cons (by decide)]
    rfl

theorem IsSteady.starPlaceholders_withVerb {url : String} (h : IsSteady url.toList) (hv : v.IsPlain) :
    ∃ t, Verb.IsRest t ∧ starPlaceholders (withVerb url v).toList =
      starPlaceholders (before '?' url.toList) ++ '?' ::
        (((typedLead url.toList).map starPlaceholders).flatMap (· ++ ['&']) ++
          (Verb.queryOf v.text.toList ++ t)) := by
  obtain ⟨rest, htext, hrest⟩ := toList_withVerb url v
  have hverb : '<' ∉ Verb.queryOf v.text.toList ∧ '>' ∉ Verb.queryOf v.text.toList := by
    constructor <;> intro hc <;> obtain he | hl := Verb.mem_queryOf hv.letters hc <;> contradiction
  have hquery (hno : '>' ∉ (typedQuery? url.toList).getD []) :
      '>' ∉ (typedLead url.toList).flatMap (· ++ ['&']) ++
        (Verb.queryOf v.text.toList ++ rest.flatMap ('&' :: ·)) := by
    intro hc
    simp only [List.mem_append, List.mem_flatMap, List.mem_cons, List.not_mem_nil, or_false] at hc
    obtain ⟨p, hp, hc | hc⟩ | hc | ⟨p, hp, hc | hc⟩ := hc
    · exact hno (mem_of_mem_lead hp hc).1
    · contradiction
    · exact hverb.2 hc
    · contradiction
    · exact (hrest p hp _ hc).elim hno hverb.2
  have hpath : ¬IsOpen (before '?' url.toList) ∨ '>' ∉ '?' :: ((typedLead url.toList).flatMap (· ++ ['&']) ++
      (Verb.queryOf v.text.toList ++ rest.flatMap ('&' :: ·))) :=
    h.closed.imp (fun h => h _ List.mem_cons_self) fun h hc =>
      (List.mem_cons.1 hc).elim (by decide) (hquery h)
  have hlead : (∀ p ∈ typedLead url.toList, ¬IsOpen p) ∨ '>' ∉ (typedLead url.toList).flatMap (· ++ ['&']) ++
      (Verb.queryOf v.text.toList ++ rest.flatMap ('&' :: ·)) :=
    h.closed.imp (fun h p hp => h p (List.mem_cons_of_mem _ hp)) hquery
  refine ⟨starPlaceholders (rest.flatMap ('&' :: ·)), ?_, ?_⟩
  · cases rest with
    | nil => exact .inl rfl
    | cons p rest => exact .inr ⟨_, starPlaceholders_cons (by decide) _⟩
  · rw [htext, starPlaceholders_append hpath, starPlaceholders_cons (by decide), starPlaceholders_parts hlead,
      starPlaceholders_append_of_notMem hverb.1]

/-! ### Reading -/

theorem settled_starNumbers {path : List Char} (h : ∀ p ∈ split '/' path, Address.SettledOrEmpty p) :
    ∀ s ∈ starNumbers path, IsSettled s :=
  forall_mem_starNumbers isPlainSegment_star.settled fun p hp hne => (h p hp).resolve_left hne

/-- The characters of the parts before the verb, also after stars have taken the place of placeholders. -/
theorem star_cases (h : ∀ c ∈ s, isBlank c = false) {p : List Char}
    (hp : p ∈ (typedLead s).map starPlaceholders) {c : Char} (hc : c ∈ p) : c ≠ '&' ∧ isBlank c = false := by
  obtain ⟨u, hu, rfl⟩ := List.mem_map.1 hp
  obtain hc | rfl := mem_starPlaceholders hc
  · obtain ⟨hmem, hamp⟩ := mem_of_mem_typedLead hu hc
    exact ⟨hamp, h c hmem⟩
  · decide

/-- What is read of a path with its verb changed. -/
theorem IsSteadyPath.parts_eq {path t : List Char} (h : IsSteadyPath s) (hv : v.IsPlain)
    (hblank : ∀ c ∈ s, isBlank c = false) (hfull : ∀ t, isFullUrl (path ++ t) = false) (hpath : '?' ∉ path)
    (ht : Verb.IsRest t) (raw : List Char) : parts raw (path ++ '?' ::
      (((typedLead s).map starPlaceholders).flatMap (· ++ ['&']) ++ (Verb.queryOf v.text.toList ++ t))) =
    .ok (path, some v) := by
  have hfind : ∀ p ∈ (typedLead s).map starPlaceholders, Verb.find? p = none := by
    intro p hp
    obtain ⟨u, hu, rfl⟩ := List.mem_map.1 hp
    exact h.lead u hu
  have hverb : typedVerb? (path ++ '?' :: (((typedLead s).map starPlaceholders).flatMap (· ++ ['&']) ++
      (Verb.queryOf v.text.toList ++ t))) = some v := by
    rw [typedVerb?, cut?_append_cons hpath, Option.bind_some]
    exact (Verb.find?_parts hfind (fun p hp c hc => star_cases hblank hp hc) _).trans (hv.find?_queryOf ht)
  rw [parts, hfull, if_neg Bool.false_ne_true, hverb, before_append_cons hpath]

/-- What is read of a URL with its verb changed, if the URL could be read before. -/
theorem IsSteadyUrl.parts_eq {secure : Bool} {front t path : List Char} {query : Option (List Char)}
    (h : IsSteadyUrl s) (hv : v.IsPlain) (hblank : ∀ c ∈ s, isBlank c = false)
    (hfront : ∀ c ∈ front, c ≠ '?' ∧ c ≠ '#' ∧ 0x20 < c.toNat) (ht : Verb.IsRest t) {raw : List Char}
    {old : Option Verb}
    (hold : parts raw (Address.originText secure front ++ queryText query) = .ok (path, old)) :
    (∃ u, path = Address.rooted .special u) ∧ ∀ raw, parts raw (Address.originText secure front ++ '?' ::
      (((typedLead s).map starPlaceholders).flatMap (· ++ ['&']) ++ (Verb.queryOf v.text.toList ++ t))) =
    .ok (path, some v) := by
  have hvalue : ∀ p ∈ (typedLead s).map starPlaceholders,
      Address.value? ⟨[], some p⟩ Verb.param.toList = none := by
    intro p hp
    obtain ⟨u, hu, rfl⟩ := List.mem_map.1 hp
    exact (h.lead u hu).2
  have hchars : ∀ p ∈ (typedLead s).map starPlaceholders, ∀ c ∈ p, c ≠ '&' ∧ c ≠ '#' ∧ isBlank c = false := by
    intro p hp c hc
    obtain ⟨hamp, hno⟩ := star_cases hblank hp hc
    refine ⟨hamp, ?_, hno⟩
    obtain ⟨u, hu, rfl⟩ := List.mem_map.1 hp
    obtain hc | rfl := mem_starPlaceholders hc
    · rintro rfl
      exact (h.lead u hu).1 hc
    · decide
  rw [parts, TypedEndpoint.isFullUrl_front, if_pos rfl] at hold
  split at hold
  · next a ha =>
    cases hold
    obtain ⟨hpath, hread⟩ := Address.read_query_of_read hfront ha
    refine ⟨hpath, fun raw => ?_⟩
    rw [parts, TypedEndpoint.isFullUrl_front, if_pos rfl, hread]
    simp only [Address.verb?_cleanedEnd hv hvalue hchars ht]
  · contradiction

theorem notMem_scheme (secure : Bool) :
    '?' ∉ (if secure then "https".toList else "http".toList) ++ "://".toList ∧
      '<' ∉ (if secure then "https".toList else "http".toList) ++ "://".toList := by
  cases secure <;> decide

theorem before_originText (secure : Bool) (u : List Char) :
    before '?' (Address.originText secure u) = Address.originText secure (before '?' u) :=
  before_append (notMem_scheme secure).1 u

theorem isFullUrl_originText (secure : Bool) (u : List Char) :
    isFullUrl (Address.originText secure u) = true := by
  rw [← List.append_nil (Address.originText secure u)]
  exact TypedEndpoint.isFullUrl_front []

/-- What stands before the query of a steady URL, also after stars have taken the place of placeholders. -/
theorem IsSteadyUrl.front_cases {secure : Bool} {u : List Char} (h : IsSteadyUrl (Address.originText secure u)) :
    ∀ c ∈ starPlaceholders (before '?' u), c ≠ '?' ∧ c ≠ '#' ∧ 0x20 < c.toNat := by
  intro c hc
  obtain hc | rfl := mem_starPlaceholders hc
  · refine ⟨(mem_of_mem_before hc).2, h.front c ?_⟩
    rw [before_originText]
    exact List.mem_append_right _ hc
  · decide

theorem settled_split_rooted (u : List Char) :
    ∀ p ∈ split '/' (Address.rooted .special u), Address.SettledOrEmpty p := by
  obtain ⟨ts, hne, hts, hall⟩ := Address.exists_rooted u
  rw [hts, split_pathOf hne fun s hs => (hall s hs).slash, List.forall_mem_cons]
  exact ⟨.inl rfl, hall⟩

/-- A steady endpoint is read as before when its verb has changed, but with the new verb, and its path is one
that is read as it is. -/
theorem IsSteady.parts_withVerb {url : String} (h : IsSteady url.toList) (hv : v.IsPlain) {raw path : List Char}
    {old : Option Verb} (hold : parts raw (starPlaceholders url.toList) = .ok (path, old)) :
    (∀ s ∈ starNumbers path, IsSettled s) ∧
      ∀ raw, parts raw (starPlaceholders (withVerb url v).toList) = .ok (path, some v) := by
  obtain ⟨hblank, hform⟩ := isEndpoint_cases h.endpoint
  obtain ⟨t, ht, hnew⟩ := h.starPlaceholders_withVerb hv
  rw [h.starPlaceholders_text] at hold
  rw [hnew]
  have hno : '?' ∉ starPlaceholders (before '?' url.toList) := fun hc =>
    (mem_starPlaceholders hc).elim (fun hc => (mem_of_mem_before hc).2 rfl) (by decide)
  have hkind := h.kind
  obtain ⟨c, u, hu, -⟩ | ⟨secure, u, -, hu⟩ := hform
  · have hslash : starPlaceholders (before '?' url.toList) = '/' :: starPlaceholders (before '?' (c :: u)) := by
      rw [hu, ← starPlaceholders_cons (by decide)]
      rfl
    have hfull (t : List Char) : isFullUrl (starPlaceholders (before '?' url.toList) ++ t) = false := by
      rw [hslash]
      rfl
    have htyped : isFullUrl url.toList = false := by
      rw [hu]
      rfl
    rw [htyped, if_neg Bool.false_ne_true] at hkind
    rw [parts, hfull, if_neg Bool.false_ne_true, before_append_queryText hno] at hold
    cases hold
    exact ⟨settled_starNumbers hkind.path, hkind.parts_eq hv hblank hfull hno ht⟩
  · have hfront : starPlaceholders (before '?' url.toList) =
        Address.originText secure (starPlaceholders (before '?' u)) := by
      rw [hu, before_originText]
      exact starPlaceholders_append_of_notMem (notMem_scheme secure).2 _
    have hurl : IsSteadyUrl url.toList := by
      rwa [hu, isFullUrl_originText, if_pos rfl, ← hu] at hkind
    rw [hfront] at hold ⊢
    obtain ⟨⟨w, rfl⟩, hparts⟩ := hurl.parts_eq hv hblank (hu ▸ hurl).front_cases ht hold
    exact ⟨settled_starNumbers (settled_split_rooted w), hparts⟩

/-! ### Compiling -/

theorem isEndpoint_withVerb {url : String} (h : isEndpoint url.toList = true) (hv : v.IsPlain) :
    isEndpoint (withVerb url v).toList = true := by
  obtain ⟨hblank, hform⟩ := isEndpoint_cases h
  obtain ⟨rest, htext, hrest⟩ := toList_withVerb url v
  have hno : (withVerb url v).toList.any isBlank = false := by
    rw [List.any_eq_false]
    intro c hc
    have hverb : c ∈ Verb.queryOf v.text.toList → isBlank c = false := fun hc =>
      (Verb.queryOf_cases hv.letters hc).2.2.2
    rw [htext] at hc
    simp only [List.mem_append, List.mem_cons, List.mem_flatMap, List.not_mem_nil, or_false] at hc
    rw [Bool.not_eq_true]
    obtain hc | rfl | ⟨p, hp, hc | rfl⟩ | hc | ⟨p, hp, rfl | hc⟩ := hc
    · exact hblank c (mem_of_mem_before hc).1
    · decide
    · exact hblank c (mem_of_mem_typedLead hp hc).1
    · decide
    · exact hverb hc
    · decide
    · exact (hrest p hp c hc).elim (fun hc => hblank c (mem_of_mem_typedQuery hc)) hverb
  obtain ⟨c, u, hu, hc⟩ | ⟨secure, u, -, hu⟩ := hform
  · have hbefore : before '?' url.toList = '/' :: c :: before '?' u := by
      rw [hu]
      exact before_append (s := ['/', c]) (by simpa using Ne.symm hc) u
    rw [hbefore] at htext
    unfold isEndpoint
    rw [hno, htext]
    simpa using hc
  · rw [hu, before_originText, Address.originText, List.append_assoc, ← Address.originText] at htext
    rw [← List.append_nil (withVerb url v).toList, htext] at hno ⊢
    exact TypedEndpoint.isEndpoint_origin (by simp) [] hno

theorem compile_eq_ok {text : String} (h : isEndpoint text.toList = true) {fallback : Verb} {e : Endpoint} :
    compile text fallback = .ok e ↔ ∃ path verb, parts text.toList (starPlaceholders text.toList) =
      .ok (path, verb) ∧ e = ⟨String.ofList (pathOf (starNumbers path)), verb.getD fallback⟩ := by
  obtain ⟨hblank, hform⟩ := isEndpoint_cases h
  have hne : text.toList ≠ [] := by
    obtain ⟨c, t, ht, -⟩ | ⟨secure, t, hne, ht⟩ := hform <;> simp [ht, Address.originText]
  rw [compile, trim_of_not_blank hblank, if_neg hne, bind_eq_ok]
  constructor
  · rintro ⟨⟨path, verb⟩, hparts, h⟩
    cases h
    exact ⟨path, verb, hparts, rfl⟩
  · rintro ⟨path, verb, hparts, rfl⟩
    exact ⟨_, hparts, rfl⟩

theorem splitTemplate_pathOf {ss : List (List Char)} (h : ∀ s ∈ ss, IsSettled s) (verb : Verb) :
    (splitTemplate (templateText (String.ofList (pathOf ss)) verb)).1 = String.ofList (pathOf ss) := by
  have htext : (templateText (String.ofList (pathOf ss)) verb).toList =
      pathOf ss ++ '?' :: Verb.queryOf verb.text.toList := by
    simp [templateText, Verb.queryOf]
  rw [splitTemplate, htext, Address.read_pathOf_query h]

/-- A steady endpoint compiles as before when its verb has changed, but with the new verb, and its path is
found again in its template. -/
theorem IsSteady.compile_withVerb {url : String} (h : IsSteady url.toList) (hv : v.IsPlain) {fallback : Verb}
    {e : Endpoint} (hold : compile url fallback = .ok e) :
    (∀ fallback, compile (withVerb url v) fallback = .ok ⟨e.path, v⟩) ∧
      ∀ verb, (splitTemplate (templateText e.path verb)).1 = e.path := by
  obtain ⟨path, old, hparts, rfl⟩ := (compile_eq_ok h.endpoint).1 hold
  obtain ⟨hsettled, hnew⟩ := h.parts_withVerb hv hparts
  exact ⟨fun fallback => (compile_eq_ok (isEndpoint_withVerb h.endpoint hv)).2 ⟨path, some v, hnew _, rfl⟩,
    splitTemplate_pathOf hsettled⟩

end Endpoint

/-! ### Mocks -/

/-- The template and the verb of a mock are what its typed endpoint compiles to. -/
def Mock.InStep (m : Mock) : Prop := ∃ e, Endpoint.compile m.typedUrl m.verb = .ok e ∧
  m.urlTemplate = e.template ∧ m.verb = e.verb

namespace Mock

variable {m : Mock} {v : Verb}

/-- Whatever verb the endpoint falls back on, it compiles to the template with the new verb. -/
theorem InStep.withVerb (h : m.InStep) (hs : Endpoint.IsSteady m.typedUrl.toList) (hv : v.IsPlain) :
    Endpoint.isEndpoint (Mocks.withVerb v m).typedUrl.toList = true ∧
      ∀ fallback, ∃ e, Endpoint.compile (Mocks.withVerb v m).typedUrl fallback = .ok e ∧
        e.template = (Mocks.withVerb v m).urlTemplate ∧ e.verb = v := by
  obtain ⟨e, he, htemplate, hverb⟩ := h
  obtain ⟨hcompile, hpath⟩ := hs.compile_withVerb hv he
  have hne : m.typedUrl ≠ "" := by
    rintro hempty
    exact absurd hs.endpoint (by rw [hempty]; decide)
  have htyped : (Mocks.withVerb v m).typedUrl = Endpoint.withVerb m.typedUrl v := if_neg hne
  have hnew : (Mocks.withVerb v m).urlTemplate = Endpoint.templateText e.path v := by
    rw [Mocks.withVerb, htemplate]
    exact congrArg (Endpoint.templateText · v) (hpath e.verb)
  rw [htyped, hnew]
  exact ⟨Endpoint.isEndpoint_withVerb hs.endpoint hv, fun fallback => ⟨_, hcompile fallback, rfl, rfl⟩⟩

end Mock

/-! ### The store -/

namespace Store

variable {s t : Store} {id : MockId}

/-- A change of the verb that succeeds is found in the store. -/
theorem find?_updateVerb {writable : Bool} {old new : Mock} {v : Verb} (hv : v.IsNormal)
    (hold : (Records.ofEntries s.entries).find? id = some old)
    (h : s.attempt writable (Mocks.updateVerb id v) = (.ok new, t)) :
    new = Mocks.withVerb v old ∧ (Records.ofEntries t.entries).find? id = some new := by
  have hop : Mocks.updateVerb id v s.entries = .ok (Mocks.withVerb v old,
      ((Records.ofEntries s.entries).replace id (Mocks.withVerb v old)).toEntries) :=
    Call.modify_eq_ok.2 ⟨old, hold, rfl, rfl⟩
  rw [Store.attempt, hop] at h
  dsimp only at h
  split at h
  · cases h
    obtain ⟨_, _, -, -, hid, -⟩ := Records.replace_of_find? hold old
    refine ⟨rfl, ?_⟩
    rw [Call.ofEntries_set_of_changes (c := .updateVerb id v) (.edit rfl hold rfl) trivial hv]
    exact Records.find?_replace hold hid
  · cases h

/-- What is answered when an endpoint is typed that can be compiled. -/
theorem updateUrl_of_compile {entries : Members} {m : Mock} {url : String} {e : Endpoint}
    (hfind : (Records.ofEntries entries).find? id = some m)
    (hurl : Endpoint.isEndpoint url.toList = true) (hcompile : Endpoint.compile url m.verb = .ok e) :
    ∃ new, Mocks.updateUrl id url entries = .ok (decide (e.template ≠ m.urlTemplate), new) := by
  have hvalid : Endpoint.validate url = .ok () := by
    rw [Endpoint.validate, trim_of_not_blank (Endpoint.isEndpoint_cases hurl).1, if_pos hurl]
  exact ⟨_, Call.updateUrl_eq_ok.2 ⟨m, _, hfind, Call.withUrl_eq_ok.2 ⟨e, hvalid, hcompile, rfl⟩, rfl, rfl⟩⟩

/-- A change of the verb keeps a steady endpoint and the template in step: the endpoint compiles to the
stored template and the new verb, and typing it again changes nothing. -/
theorem updateVerb_inStep {writable : Bool} {old new : Mock} {letters : List Char}
    (hold : (Records.ofEntries s.entries).find? id = some old) (hstep : old.InStep)
    (hsteady : Endpoint.IsSteady old.typedUrl.toList) (hne : letters ≠ [])
    (hletters : ∀ c ∈ letters, isAsciiLetter c = true)
    (h : s.attempt writable (Mocks.updateVerb id (.of letters)) = (.ok new, t)) :
    new.verb = .of letters ∧
      (∀ fallback, ∃ e, Endpoint.compile new.typedUrl fallback = .ok e ∧
        e.template = new.urlTemplate ∧ e.verb = .of letters) ∧
      (t.attempt true (Mocks.updateUrl id new.typedUrl)).1 = .ok false := by
  obtain ⟨rfl, hfind⟩ := find?_updateVerb (Verb.isNormal_of letters) hold h
  obtain ⟨hurl, hcompile⟩ := hstep.withVerb hsteady (Verb.isPlain_of hne hletters)
  refine ⟨rfl, hcompile, ?_⟩
  obtain ⟨e, he, htemplate, -⟩ := hcompile (Mocks.withVerb (.of letters) old).verb
  obtain ⟨entries, hupdate⟩ := updateUrl_of_compile hfind hurl he
  rw [attempt_true, perform, hupdate]
  simp [htemplate]

/-- A mock that has an endpoint as it was typed, and a store with this mock alone. -/
def typedMock (url template : String) : Mock := ⟨⟨5⟩, url, template, .get, .int 0, true⟩

def typedStore (url template : String) : Store :=
  (inMemory.after true .seed).after true (.save (typedMock url template))

theorem find?_typedStore (url template : String) :
    (Records.ofEntries (typedStore url template).entries).find? ⟨5⟩ = some (typedMock url template) := by
  have hset : typedStore url template =
      (inMemory.after true .seed).set (Records.toEntries [.mock (typedMock url template)]) := by
    rw [typedStore, after, attempt_true]
    rfl
  have hnormal : (typedMock url template).Normal Mock.AnyLeaf :=
    ⟨show MockId.InRange ⟨5⟩ by decide, show Verb.IsNormal .get by decide, .scalar trivial trivial⟩
  rw [hset, Records.ofEntries_set, List.map_singleton, Record.toJson, Record.ofJson_toJson, hnormal.readBack]
  rfl

/-- Whatever its endpoint, the verb of the mock can be changed. -/
theorem attempt_typedStore (url template : String) (v : Verb) : ∃ t, (typedStore url template).attempt true
    (Mocks.updateVerb ⟨5⟩ v) = (.ok (Mocks.withVerb v (typedMock url template)), t) := by
  have hop : Mocks.updateVerb ⟨5⟩ v (typedStore url template).entries = .ok (_, _) :=
    Call.modify_eq_ok.2 ⟨_, find?_typedStore url template, rfl, rfl⟩
  rw [attempt_true, perform, hop]
  exact ⟨_, rfl⟩

theorem isSteady_placeholder : Endpoint.IsSteady "/a/<id>/20?x=1&MT=get".toList where
  endpoint := by decide
  closed := .inr (by decide)
  kind := by
    have hfull : Endpoint.isFullUrl "/a/<id>/20?x=1&MT=get".toList = false := by decide
    rw [hfull, if_neg Bool.false_ne_true]
    constructor
    · have hsplit : split '/' (Endpoint.starPlaceholders (before '?' "/a/<id>/20?x=1&MT=get".toList)) =
          [[], "a".toList, "*".toList, "20".toList] := by decide +kernel
      rw [hsplit]
      simp only [List.forall_mem_cons]
      refine ⟨.inl rfl, .inr ?_, .inr ?_, .inr ?_, List.forall_mem_nil _⟩ <;>
        exact IsPlainSegment.settled ⟨forall_mem_of_all (by decide), by decide, by decide, by decide⟩
    · have hlead : Endpoint.typedLead "/a/<id>/20?x=1&MT=get".toList = ["x=1".toList] := by decide +kernel
      rw [hlead, List.forall_mem_singleton]
      decide +kernel

theorem updateVerb_inStep_placeholder : ∃ new t,
    (typedMock "/a/<id>/20?x=1&MT=get" "/a/*/*?MT=GET").InStep ∧
    (typedStore "/a/<id>/20?x=1&MT=get" "/a/*/*?MT=GET").attempt true
      (Mocks.updateVerb ⟨5⟩ (.of "put".toList)) = (.ok new, t) ∧
    new.typedUrl = "/a/<id>/20?x=1&MT=PUT" ∧ new.verb = .of "put".toList ∧
    (∀ fallback, ∃ e, Endpoint.compile new.typedUrl fallback = .ok e ∧
      e.template = new.urlTemplate ∧ e.verb = .of "put".toList) ∧
    (t.attempt true (Mocks.updateUrl ⟨5⟩ new.typedUrl)).1 = .ok false := by
  obtain ⟨t, ht⟩ := attempt_typedStore "/a/<id>/20?x=1&MT=get" "/a/*/*?MT=GET" (.of "put".toList)
  have hstep : (typedMock "/a/<id>/20?x=1&MT=get" "/a/*/*?MT=GET").InStep :=
    ⟨⟨"/a/*/*", .get⟩, by rfl, by rfl, rfl⟩
  have htyped : (Mocks.withVerb (.of "put".toList) (typedMock "/a/<id>/20?x=1&MT=get" "/a/*/*?MT=GET")).typedUrl =
      "/a/<id>/20?x=1&MT=PUT" := by decide +kernel
  exact ⟨_, t, hstep, ht, htyped, updateVerb_inStep (find?_typedStore _ _) hstep isSteady_placeholder
    (by decide) (forall_mem_of_all (by decide)) ht⟩

/-- A parameter whose name ends like that of the verb is not replaced, but it is what is read: the endpoint
then says another verb than the template, and typing it again changes the template. -/
theorem not_updateVerb_inStep_suffix : ∃ new t,
    (typedMock "/a?XMT=GET" "/a?MT=GET").InStep ∧
    (typedStore "/a?XMT=GET" "/a?MT=GET").attempt true
      (Mocks.updateVerb ⟨5⟩ (.of "PUT".toList)) = (.ok new, t) ∧
    new.typedUrl = "/a?XMT=GET&MT=PUT" ∧ new.urlTemplate = "/a?MT=PUT" ∧
    Endpoint.compile new.typedUrl new.verb = .ok ⟨"/a", .get⟩ ∧
    (t.attempt true (Mocks.updateUrl ⟨5⟩ new.typedUrl)).1 = .ok true := by
  obtain ⟨t, ht⟩ := attempt_typedStore "/a?XMT=GET" "/a?MT=GET" (.of "PUT".toList)
  obtain ⟨-, hfind⟩ := find?_updateVerb (Verb.isNormal_of _) (find?_typedStore _ _) ht
  have hstep : (typedMock "/a?XMT=GET" "/a?MT=GET").InStep := ⟨⟨"/a", .get⟩, by rfl, by rfl, rfl⟩
  have hcompile : Endpoint.compile (Mocks.withVerb (.of "PUT".toList)
      (typedMock "/a?XMT=GET" "/a?MT=GET")).typedUrl (.of "PUT".toList) = .ok ⟨"/a", .get⟩ := by rfl
  have hchanged : (⟨"/a", .get⟩ : Endpoint).template ≠
      (Mocks.withVerb (.of "PUT".toList) (typedMock "/a?XMT=GET" "/a?MT=GET")).urlTemplate := by
    decide +kernel
  obtain ⟨entries, hupdate⟩ := updateUrl_of_compile hfind (by decide +kernel) hcompile
  refine ⟨_, t, hstep, ht, by decide +kernel, by decide +kernel, hcompile, ?_⟩
  rw [attempt_true, perform, hupdate, decide_eq_true hchanged]

end Store
end MockRedirect
