import MockRedirect.Archive
import MockRedirect.Proofs.Gaps
import MockRedirect.Proofs.Margin
import MockRedirect.Proofs.TemplateForm
import MockRedirect.Proofs.VerbChange
/-! From a recording to a request: which recorded URLs are redirected once the recording has become a mock. The
template keeps the verb and the path, but neither the order of the parameters nor empty segments. -/
namespace MockRedirect
open Text

/-! ### Written URLs -/

namespace Address

/-- The characters that stay as they are in a query. -/
def keepsQuery (c : Char) : Bool := keepsOpaque c && !" \"#<>'".toList.contains c

/-- The query of a URL in encoded form. -/
def writtenQuery (a : Address) : Option (List Char) := a.query.map (percentEncode keepsQuery)

/-- A URL of some origin as it is written, without a fragment. -/
def written (a : Address) (origin : List Char) : String :=
  String.ofList (origin ++ (a.path ++ queryText a.writtenQuery))

/-- The query begins with a verb, in either case, and then it ends or goes on with a separator. -/
def LeadsWith (a : Address) (verb : List Char) : Prop :=
  ∃ w t, a.writtenQuery = some (w ++ t) ∧ w.map folded = (Verb.queryOf verb).map folded ∧ Token.Ends t

/-- Each empty segment behind the first one that is not empty stands next to a number. -/
def KeepsGaps (a : Address) : Prop := Endpoint.gapsAtNumbers false (Endpoint.innerSegments a.path) = true

instance (a : Address) : Decidable a.KeepsGaps := inferInstanceAs (Decidable (_ = true))

/-- The template of the path stands for this path alone: there is no number behind its first segment, no star
and no caret. -/
structure IsLiteral (a : Address) : Prop where
  no_number : ∀ s ∈ Endpoint.innerSegments a.path, Endpoint.isNumeric s = false
  no_star : '*' ∉ a.path
  no_caret : '^' ∉ a.path

end Address

/-! ### Endpoints of recordings -/

namespace Endpoint

variable {s : List Char}

theorem starPlaceholders_eq_self (h : hasPlaceholder s = false) : starPlaceholders s = s := by
  rw [starPlaceholders]
  induction s with
  | nil => rfl
  | cons c s ih =>
    rw [hasPlaceholder, Bool.or_eq_false_iff] at h
    have hnone : (if c = '<' then placeholderLength? s else none) = none := by
      by_cases hc : c = '<'
      · simpa [hc] using h.1
      · rw [if_neg hc]
    rw [starPlaceholders.go, hnone]
    exact congrArg (c :: ·) (ih h.2)

/-- A URL that is recorded with a verb compiles to its path and this verb, with blanks around it or without. -/
theorem compile_of_recorded {a : Address} {letters : List Char} (h : isEndpoint (trim s) = true)
    (hread : Address.read false s = .ok a) (hvalue : a.value? Verb.param.toList = some letters)
    (hne : letters ≠ []) (hletters : ∀ c ∈ letters, isAsciiLetter c = true)
    (hplain : hasPlaceholder (trim s) = false) (fallback : Verb) :
    (∃ w, a.path = Address.rooted .special w) ∧ compile (String.ofList (trim s)) fallback =
      .ok ⟨String.ofList (pathOf (starNumbers a.path)), .of letters⟩ := by
  obtain ⟨pre, post, hs, hpre, hpost⟩ := exists_trim s
  have hback : Address.read false (trim s ++ post) = .ok a := Address.read_append hpre (hs ▸ hread)
  obtain ⟨-, ⟨c, t, ht, -⟩ | ⟨secure, u, -, hu⟩⟩ := isEndpoint_cases h
  · -- a path is not read as a URL
    obtain ⟨d, r, hdrop, hletter⟩ := Address.letter_of_read hback
    rw [ht, List.cons_append, List.dropWhile_cons_of_neg (by decide)] at hdrop
    obtain rfl := (List.cons.inj hdrop).1
    contradiction
  · obtain ⟨path, query⟩ := a
    cases query with
    | none => simp [Address.value?] at hvalue
    | some q =>
      have hassoc : Address.originText secure u ++ post = Address.originText secure (u ++ post) :=
        List.append_assoc ..
      rw [hu, hassoc] at hback
      obtain ⟨q₀, y, hbase, rfl, hmargin⟩ := Address.read_append_blanks hpost hback rfl
      have hvalue₀ := Address.value?_of_append hmargin hne
        (fun c hc => isAscii_of_isAsciiLetter (hletters c hc)) hvalue
      have hverb : Address.verb? ⟨path, some q₀⟩ = some (.of letters) := by
        rw [Address.verb?, hvalue₀, Option.bind_some, (Verb.isPlain_of hne hletters).filled]
      have hrooted := Address.exists_rooted_of_read hbase
      refine ⟨hrooted, ?_⟩
      rw [← String.toList_ofList (l := trim s)] at h hplain
      refine (compile_eq_ok h).2 ⟨path, some (.of letters), ?_, rfl⟩
      rw [starPlaceholders_eq_self hplain, String.toList_ofList, hu, parts, isFullUrl_originText, if_pos rfl,
        hbase]
      simp only [hverb]

end Endpoint

namespace Draft

/-- A draft made from a tree has the shape of an endpoint. -/
theorem isEndpoint_of_ofTree {url : String} {fallback : Verb} {tree : Json} {d : Draft}
    (h : ofTree url fallback tree = .ok d) : Endpoint.isEndpoint (trim url.toList) = true := by
  rw [ofTree] at h
  dsimp only at h
  split at h
  · cases h
  · obtain ⟨_, hvalid, -⟩ := bind_eq_ok.1 h
    rw [Endpoint.validate, trimmed, String.toList_ofList, trim_trim] at hvalid
    by_contra hform
    rw [if_neg hform] at hvalid
    exact absurd hvalid (by simp)

end Draft

/-! ### Admitted URLs -/

namespace Endpoint

variable {a : Address} {letters origin : List Char}

/-- The endpoint that a recorded URL compiles to. -/
def recorded (path letters : List Char) : Endpoint := ⟨String.ofList (pathOf (starNumbers path)), .of letters⟩

theorem isResolved_recorded {path : List Char} (hpath : ∃ w, path = Address.rooted .special w) (hne : letters ≠ [])
    (hletters : ∀ c ∈ letters, isAsciiLetter c = true) : (recorded path letters).IsResolved := by
  obtain ⟨w, rfl⟩ := hpath
  exact ⟨⟨_, settled_starNumbers (settled_split_rooted w), rfl⟩, Verb.isPlain_of hne hletters⟩

theorem folded_query (hletters : ∀ c ∈ letters, isAsciiLetter c = true) :
    ("?MT=".toList ++ (Verb.of letters).text.toList).map folded = '?' :: (Verb.queryOf letters).map folded := by
  have htrim : trim letters = letters :=
    trim_of_not_blank fun c hc => (plain_cases (letter_cases (hletters c hc)).2.1).2.2.1
  have hupper : (uppercase letters).map folded = letters.map folded := by
    rw [uppercase, List.map_map]
    exact List.map_congr_left fun c hc => folded_upper (hletters c hc)
  have htext : (Verb.of letters).text.toList = uppercase letters := by
    rw [Verb.of, htrim]
    exact String.toList_ofList
  rw [htext, List.map_append, hupper, Verb.queryOf, List.map_append]
  rfl

/-- The characters of a path that is read. -/
theorem line_of_rooted {path : List Char} (hpath : ∃ w, path = Address.rooted .special w) :
    '\n' ∉ path ∧ '?' ∉ path := by
  obtain ⟨w, rfl⟩ := hpath
  constructor <;> intro hc <;> obtain he | hk := Address.inPath_rooted _ hc <;> contradiction

/-- A URL whose query begins with its verb is admitted if the gaps in its path are at numbers. -/
theorem admits_written (hpath : ∃ w, a.path = Address.rooted .special w) (hne : letters ≠ [])
    (hletters : ∀ c ∈ letters, isAsciiLetter c = true) (horigin : '\n' ∉ origin)
    (hgaps : gapsAtNumbers false (innerSegments a.path) = true) (hlead : a.LeadsWith letters) :
    UrlFilter.admits ⟨.none, (recorded a.path letters).filterText.toList.map Token.of, false⟩
      (a.written origin) = true := by
  have hline := (line_of_rooted hpath).1
  have hhead : a.path.head? = some '/' := by
    obtain ⟨w, hw⟩ := hpath
    rw [hw, Address.head?_rooted]
  obtain ⟨w, t, hquery, hw, ht⟩ := hlead
  obtain ⟨front, s, htext, htemplate, -, -⟩ := exists_path_eq hhead
  rw [htext, List.mem_append, List.mem_cons, List.mem_append, not_or, not_or, not_or] at hline
  have hsegments : ∀ s ∈ innerSegments a.path, '\n' ∉ s := fun s hs hc =>
    hline.2.2.2 (List.mem_flatMap.2 ⟨s, hs, List.mem_cons_of_mem _ hc⟩)
  have hfilled : Filled (recorded a.path letters).path.toList ('/' :: (s ++ slashed (innerSegments a.path))) := by
    rw [recorded, String.toList_ofList, htemplate]
    exact .char (by decide) ((Filled.refl hline.2.2.1).append ((filled_slashed hsegments).1 hgaps))
  rw [Endpoint.admits_filter_iff (isResolved_recorded hpath hne hletters).not_star]
  refine ⟨[], origin ++ front, _, '?' :: w, t, ?_, ?_, Token.spans_of_filled hfilled, ?_, ht⟩
  · rw [Address.written, String.toList_ofList, hquery]
    conv_lhs => rw [htext]
    simp [queryText]
  · rw [List.mem_append, not_or]
    exact ⟨horigin, hline.1⟩
  · rw [recorded, folded_query hletters, List.map_cons, hw]
    rfl

/-- Where a URL with one question mark is admitted, what stands before the mark ends with what the path of its
template spans, and the query begins with the verb. -/
theorem exists_spans_of_admits (hpath : ∃ w, a.path = Address.rooted .special w) (hne : letters ≠ [])
    (hletters : ∀ c ∈ letters, isAsciiLetter c = true) (horigin : '?' ∉ origin) {q : List Char}
    (hq : a.query = some q) (hmark : '?' ∉ q)
    (h : UrlFilter.admits ⟨.none, (recorded a.path letters).filterText.toList.map Token.of, false⟩
      (a.written origin) = true) :
    a.LeadsWith letters ∧ ∃ front path post, origin ++ a.path = front ++ path ∧
      (Pattern.chain (((pathOf (starNumbers a.path)).map Token.of).map Token.pattern)).Spans front path post := by
  obtain ⟨front, pre, path, verb, tail, hurl, -, hspans, hverb, htail⟩ :=
    (Endpoint.admits_filter_iff (isResolved_recorded hpath hne hletters).not_star).1 h
  rw [recorded, folded_query hletters] at hverb
  obtain ⟨c, w, rfl, hc, hw⟩ := List.map_eq_cons_iff.1 hverb
  obtain rfl : c = '?' := (folded_eq_self (by rw [hc]; decide)).symm.trans hc
  have hwritten : '?' ∉ percentEncode Address.keepsQuery q := fun hc =>
    (mem_percentEncode hc).elim (fun hc => hmark hc.1) fun hc => absurd hc (by decide)
  have hbefore : '?' ∉ origin ++ a.path := fun hc =>
    (List.mem_append.1 hc).elim horigin (line_of_rooted hpath).2
  have hparts : (origin ++ a.path) ++ '?' :: percentEncode Address.keepsQuery q =
      (front ++ pre ++ path) ++ '?' :: (w ++ tail) := by
    simpa [Address.written, Address.writtenQuery, hq, queryText] using hurl
  obtain ⟨hfront, -, hquery⟩ := (List.append_cons_inj_of_notMem hbefore hwritten).1 hparts
  refine ⟨⟨w, tail, ?_, hw, htail⟩, front ++ pre, path, '?' :: w ++ tail, hfront, ?_⟩
  · rw [Address.writtenQuery, hq, Option.map_some, hquery]
  · simpa [recorded] using hspans

end Endpoint

/-! ### Rules -/

namespace Table

/-- What a table with the rule of one mock answers. -/
theorem evaluate_singleton {id priority : Nat} {action : RuleAction} {filter url : String} {f : UrlFilter}
    (h : UrlFilter.parse filter = .ok f) :
    evaluate [⟨id, priority, action, ⟨filter, [.xmlHttpRequest], [.post]⟩⟩] ⟨url, .post, .xmlHttpRequest⟩ =
      .ok (if f.admits url then some ⟨id, priority, action, ⟨filter, [.xmlHttpRequest], [.post]⟩⟩
        else none) := by
  have hadmits : admits ⟨id, priority, action, ⟨filter, [.xmlHttpRequest], [.post]⟩⟩
      ⟨url, .post, .xmlHttpRequest⟩ = .ok (f.admits url) := by
    simp [admits, h, Except.map]
  rw [evaluate, List.foldlM_cons, hadmits]
  cases f.admits url <;> rfl

end Table

namespace Archive

/-- A recording whose URL has a verb of letters and no placeholders becomes a mock whose rule redirects to the
recorded body. A request for the recorded URL is redirected if the query begins with the verb and each gap in the path
stands next to a number; it is not if the query does not begin with the verb, or if there is a gap in a path without
numbers and wildcards. -/
theorem intercepts_recorded {entries : List Recording} {marker : String} {r : Recording} {d : Draft} {a : Address}
    {letters : List Char} (hr : r ∈ entries) (hmarker : contains marker.toList r.url.toList = true)
    (hd : draft? r = some d) (ha : Address.read false r.url.toList = .ok a)
    (hvalue : a.value? Verb.param.toList = some letters) (hne : letters ≠ [])
    (hletters : ∀ c ∈ letters, isAsciiLetter c = true)
    (hplain : Endpoint.hasPlaceholder d.typedUrl.toList = false) (drawn : MockId) (taken : List MockId) (id : Nat) :
    d ∈ drafts entries marker ∧ ∃ rule, (d.toMock drawn taken).rule id = .ok rule ∧
      rule.action = .redirect (Mock.dataUrl d.body) ∧ ∀ origin, '\n' ∉ origin → '?' ∉ origin →
        (a.LeadsWith letters → a.KeepsGaps →
          Table.evaluate [rule] ⟨a.written origin, .post, .xmlHttpRequest⟩ = .ok (some rule)) ∧
        ('?' ∉ a.query.getD [] → ¬a.LeadsWith letters ∨ (a.IsLiteral ∧ ¬a.KeepsGaps) →
          Table.evaluate [rule] ⟨a.written origin, .post, .xmlHttpRequest⟩ = .ok none) := by
  have hmem : d ∈ drafts entries marker :=
    List.mem_filterMap.2 ⟨r, List.mem_filter.2 ⟨hr, hmarker⟩, hd⟩
  obtain ⟨fallback, tree, -, htree⟩ := Draft.exists_ofTree_of_draft? hd
  have hform := Draft.isEndpoint_of_ofTree htree
  obtain ⟨e, he, rfl⟩ := Draft.exists_endpoint_of_ofTree htree
  rw [trimmed, String.toList_ofList] at hplain
  obtain ⟨hpath, hcompile⟩ := Endpoint.compile_of_recorded hform ha hvalue hne hletters hplain fallback
  obtain rfl : Endpoint.recorded a.path letters = e := Except.ok.inj (hcompile.symm.trans he)
  have hresolved := Endpoint.isResolved_recorded hpath hne hletters
  refine ⟨hmem, _, Mock.rule_of_isResolved hresolved rfl rfl id, rfl, fun origin hline hmark => ?_⟩
  rw [Table.evaluate_singleton hresolved.parse_filterText]
  constructor
  · intro hlead hgaps
    rw [if_pos (Endpoint.admits_written hpath hne hletters hline hgaps hlead)]
  · intro hquery hfails
    rw [if_neg]
    intro hadmits
    obtain ⟨q, hq⟩ : ∃ q, a.query = some q := by
      obtain ⟨q, hq, -⟩ := Option.bind_eq_some_iff.1 hvalue
      exact ⟨q, hq⟩
    rw [hq, Option.getD_some] at hquery
    obtain ⟨hlead, front, path, post, hfront, hspans⟩ :=
      Endpoint.exists_spans_of_admits hpath hne hletters hmark hq hquery hadmits
    obtain hfails | ⟨hliteral, hfails⟩ := hfails
    · exact hfails hlead
    · refine hfails (Endpoint.gapsAtNumbers_of_spans ?_ hliteral.no_number hliteral.no_star hliteral.no_caret
        hfront hspans)
      obtain ⟨w, hw⟩ := hpath
      rw [hw, Address.head?_rooted]

/-- A recording with some URL and an empty object as its body, and its draft. -/
def emptyRecording (url : String) : Recording := ⟨url, 200, some "{}"⟩

def emptyDraft (url template : String) : Draft := ⟨none, url, template, .get, .obj [], .obj []⟩

/-- A slash before the first segment, slashes behind a number, and a verb in small letters are all taken in. -/
theorem intercepts_recorded_gaps : ∃ rule,
    emptyDraft "http://h//a/2//?MT=get&x" "/a/*?MT=GET" ∈ drafts [emptyRecording "http://h//a/2//?MT=get&x"] "a" ∧
      ((emptyDraft "http://h//a/2//?MT=get&x" "/a/*?MT=GET").toMock ⟨7⟩ []).rule 7 = .ok rule ∧
      rule.action = .redirect "data:application/json,%7B%7D" ∧
      Table.evaluate [rule] ⟨"http://h//a/2//?MT=get&x", .post, .xmlHttpRequest⟩ = .ok (some rule) := by
  have hmarker : contains "a".toList (emptyRecording "http://h//a/2//?MT=get&x").url.toList = true := by decide +kernel
  have hread : Address.read false (emptyRecording "http://h//a/2//?MT=get&x").url.toList =
      .ok ⟨"//a/2//".toList, some "MT=get&x".toList⟩ := by rfl
  have hvalue : Address.value? ⟨"//a/2//".toList, some "MT=get&x".toList⟩ Verb.param.toList =
      some "get".toList := by rfl
  have hdraft : draft? (emptyRecording "http://h//a/2//?MT=get&x") =
      some (emptyDraft "http://h//a/2//?MT=get&x" "/a/*?MT=GET") := by rfl
  have hplain : Endpoint.hasPlaceholder (emptyDraft "http://h//a/2//?MT=get&x" "/a/*?MT=GET").typedUrl.toList =
      false := by decide +kernel
  have hlead : Address.LeadsWith ⟨"//a/2//".toList, some "MT=get&x".toList⟩ "get".toList :=
    ⟨"MT=get".toList, "&x".toList, by decide +kernel, by decide, .more (Token.isSeparator_iff.1 (by decide)) _⟩
  have hwritten : Address.written ⟨"//a/2//".toList, some "MT=get&x".toList⟩ "http://h".toList =
      "http://h//a/2//?MT=get&x" := by decide +kernel
  obtain ⟨hmem, rule, hrule, haction, h⟩ := intercepts_recorded (List.mem_singleton_self _) hmarker hdraft hread
    hvalue (by decide) (forall_mem_of_all (by decide)) hplain ⟨7⟩ [] 7
  have hevaluate := (h "http://h".toList (by decide) (by decide)).1 hlead (by decide +kernel)
  rw [hwritten] at hevaluate
  exact ⟨rule, hmem, hrule, haction, hevaluate⟩

/-- The mock of a recording does not intercept the recorded request. -/
def Missed (url : String) : Prop := ∃ d rule a, drafts [emptyRecording url] "a" = [d] ∧
  Address.read false url.toList = .ok a ∧ a.value? Verb.param.toList = some "GET".toList ∧
  (d.toMock ⟨7⟩ []).rule 7 = .ok rule ∧
  Table.evaluate [rule] ⟨a.written "http://h".toList, .post, .xmlHttpRequest⟩ = .ok none

def emptyRule (filter : String) : Rule :=
  ⟨7, 1, .redirect "data:application/json,%7B%7D", ⟨filter, [.xmlHttpRequest], [.post]⟩⟩

/-- A parameter before the verb, a slash at the end of the path, and a placeholder that hides a way up. -/
theorem not_intercepts_recorded :
    Missed "http://h/a?x&MT=GET" ∧ Missed "http://h/a/?MT=GET" ∧ Missed "http://h/a/<b/../../c>?MT=GET" :=
  ⟨⟨emptyDraft "http://h/a?x&MT=GET" "/a?MT=GET", emptyRule "*/a?MT=GET^",
      ⟨"/a".toList, some "x&MT=GET".toList⟩, by rfl, by rfl, by rfl, by rfl, by rfl⟩,
    ⟨emptyDraft "http://h/a/?MT=GET" "/a?MT=GET", emptyRule "*/a?MT=GET^",
      ⟨"/a/".toList, some "MT=GET".toList⟩, by rfl, by rfl, by rfl, by rfl, by rfl⟩,
    ⟨emptyDraft "http://h/a/<b/../../c>?MT=GET" "/a/*?MT=GET", emptyRule "*/a/*?MT=GET^",
      ⟨"/c%3E".toList, some "MT=GET".toList⟩, by rfl, by rfl, by rfl, by rfl, by rfl⟩⟩

end Archive

end MockRedirect
