import MockRedirect.Proofs.Endpoint
import MockRedirect.Proofs.Evaluation
import MockRedirect.Proofs.Filter
import MockRedirect.Proofs.Plan
import MockRedirect.Proofs.Reconcile
import MockRedirect.Proofs.Record
/-! From a draft to a request: once a draft is saved and the table is reconciled, some rule decides
about the requests that its endpoint is meant for. Each step on the way reads what the step before has
written, so that the path and the verb that were compiled are still those that the filter looks for. -/
namespace MockRedirect
open Text

/-! ### Meant URLs -/

/-- The texts that a path stands for: a star for any text of one line, another character for itself. -/
inductive Filled : List Char → List Char → Prop
  | nil : Filled [] []
  | star {path s : List Char} (run : List Char) (hrun : '\n' ∉ run) (rest : Filled path s) :
    Filled ('*' :: path) (run ++ s)
  | char {path s : List Char} {c : Char} (hc : c ≠ '*') (rest : Filled path s) :
    Filled (c :: path) (c :: s)

/-- What can follow a verb in a URL: nothing, or a separator and any text. -/
inductive Token.Ends : List Char → Prop
  | done : Ends []
  | more {c : Char} (hc : Separates c) (rest : List Char) : Ends (c :: rest)

/-- The URLs that an endpoint is meant for: any text of one line, the path with its stars filled in,
and the verb in either case. -/
inductive Endpoint.Means (ep : Endpoint) : List Char → Prop
  | url {pre path verb tail : List Char} (hpre : '\n' ∉ pre) (hpath : Filled ep.path.toList path)
    (hverb : verb.map folded = ep.verb.text.toList.map folded) (htail : Token.Ends tail) :
    Means ep (pre ++ path ++ "?MT=".toList ++ verb ++ tail)

/-! ### Filters of templates -/

namespace Token

variable {path s t pre post : List Char}

/-- The tokens of a path span what the path stands for. -/
theorem spans_of_filled (h : Filled path s) :
    (Pattern.chain ((path.map of).map pattern)).Spans pre s post := by
  induction h generalizing pre with
  | nil => rfl
  | @star path s run hrun _ ih =>
    refine Pattern.spans_chain_cons.2 ⟨run, s, rfl, ?_, ih⟩
    intro c hc
    have hn : c ≠ '\n' := fun he => hrun (he ▸ hc)
    simpa using hn
  | @char path s c hc _ ih =>
    refine Pattern.spans_chain_cons.2 ⟨[c], s, rfl, ?_, ih⟩
    by_cases hsep : c = '^'
    · subst hsep
      exact .inl ⟨_, by decide, rfl⟩
    · rw [of, if_neg hc, if_neg hsep]
      exact ⟨c, by simp, rfl⟩

theorem pattern_of_notMem {c : Char} (hc : c ≠ '*' ∧ c ≠ '^') :
    (of c).pattern = .one (folded · == folded c) := by
  rw [of, if_neg hc.1, if_neg hc.2]
  rfl

/-- The tokens of a text without stars and carets span this text in any case. -/
theorem spans_iff_folded (hs : ∀ c ∈ s, c ≠ '*' ∧ c ≠ '^') :
    (Pattern.chain ((s.map of).map pattern)).Spans pre t post ↔ t.map folded = s.map folded := by
  induction s generalizing t pre with
  | nil =>
    rw [List.map_nil, List.map_nil, List.map_nil, List.map_eq_nil_iff]
    rfl
  | cons c s ih =>
    rw [List.forall_mem_cons] at hs
    rw [List.map_cons, List.map_cons, Pattern.spans_chain_cons, pattern_of_notMem hs.1]
    constructor
    · rintro ⟨_, v, rfl, ⟨d, hd, rfl⟩, hv⟩
      rw [List.singleton_append, List.map_cons, List.map_cons, (ih hs.2).1 hv, beq_iff_eq.1 hd]
    · intro h
      cases t with
      | nil => simp at h
      | cons d t =>
        obtain ⟨hd, ht⟩ := List.cons.inj h
        exact ⟨[d], t, rfl, ⟨d, beq_iff_eq.2 hd, rfl⟩, (ih hs.2).2 ht⟩

/-- A separator spans what can follow a verb, or the front of it. -/
theorem ends_iff : Ends s ↔ ∃ u post, s = u ++ post ∧ separator.pattern.Spans pre u post := by
  constructor
  · intro h
    cases h with
    | done => exact ⟨[], [], rfl, .inr ⟨rfl, rfl⟩⟩
    | @more c hc rest => exact ⟨[c], rest, rfl, .inl ⟨c, isSeparator_iff.2 hc, rfl⟩⟩
  · rintro ⟨_, post, rfl, ⟨c, hc, rfl⟩ | ⟨rfl, rfl⟩⟩
    · exact .more (isSeparator_iff.1 hc) post
    · exact .done

end Token

namespace UrlFilter

/-- A filter that neither begins nor ends with a bar has no anchor. -/
theorem parse_of_no_bars {text : String} (hne : text.toList ≠ []) (ha : isAscii text.toList = true)
    (hhead : text.toList.head? ≠ some '|') (hlast : text.toList.getLast? ≠ some '|') :
    parse text = .ok ⟨.none, text.toList.map Token.of, false⟩ := by
  refine parse_eq_ok_iff.2 ⟨hne, ha, text.toList, ⟨?_, fun _ => hhead, nofun, fun _ => hlast⟩, rfl⟩
  simp [Anchor.bars]

end UrlFilter

namespace Endpoint

/-- The filter for the template of an endpoint. -/
def filterText (ep : Endpoint) : String := "*" ++ ep.template ++ "^"

variable {ep : Endpoint}

theorem toList_filterText (ep : Endpoint) : ep.filterText.toList =
    '*' :: (ep.path.toList ++ ("?MT=".toList ++ ep.verb.text.toList) ++ ['^']) := by
  simp [filterText, template, templateText, Verb.param]

theorem IsResolved.isAscii_filterText (h : ep.IsResolved) : isAscii ep.filterText.toList = true := by
  simp only [isAscii, List.all_eq_true, decide_eq_true_eq]
  intro c hc
  simp only [filterText, String.toList_append, List.mem_append] at hc
  obtain (hc | hc) | hc := hc
  · obtain rfl : c = '*' := by simpa using hc
    decide
  · exact (h.template_cases hc).1
  · obtain rfl : c = '^' := by simpa using hc
    decide

theorem IsResolved.not_star (h : ep.IsResolved) : ∀ c ∈ ep.verb.text.toList, c ≠ '*' ∧ c ≠ '^' := by
  intro c hc
  have hupper := h.verb.upper c hc
  constructor <;> rintro rfl <;> exact absurd hupper (by decide)

/-- What the filter of an endpoint is read as. -/
theorem parse_filterText (hascii : isAscii ep.filterText.toList = true) :
    UrlFilter.parse ep.filterText = .ok ⟨.none, ep.filterText.toList.map Token.of, false⟩ := by
  have hlist := toList_filterText ep
  refine UrlFilter.parse_of_no_bars ?_ hascii ?_ ?_
  · simp [hlist]
  · simp [hlist]
  · rw [hlist, ← List.cons_append, List.getLast?_append]
    simp

theorem IsResolved.parse_filterText (h : ep.IsResolved) :
    UrlFilter.parse ep.filterText = .ok ⟨.none, ep.filterText.toList.map Token.of, false⟩ :=
  Endpoint.parse_filterText h.isAscii_filterText

theorem IsPlain.parse_filterText (h : ep.IsPlain) :
    UrlFilter.parse ep.filterText = .ok ⟨.none, ep.filterText.toList.map Token.of, false⟩ :=
  h.resolved.parse_filterText

theorem patterns_filterText (ep : Endpoint) :
    (ep.filterText.toList.map Token.of).map Token.pattern =
      Token.any.pattern :: ((ep.path.toList.map Token.of).map Token.pattern ++
        ((("?MT=".toList ++ ep.verb.text.toList).map Token.of).map Token.pattern ++
          [Token.separator.pattern])) := by
  rw [toList_filterText]
  generalize "?MT=".toList ++ ep.verb.text.toList = verb
  simp only [List.map_cons, List.map_append, List.map_nil, List.append_assoc]
  rfl

/-- The filter of an endpoint admits the URLs in which some text of one line, what the path spans, the verb in
either case, and the end or a separator follow each other. -/
theorem admits_filter_iff (hchars : ∀ c ∈ ep.verb.text.toList, c ≠ '*' ∧ c ≠ '^') {url : String} :
    UrlFilter.admits ⟨.none, ep.filterText.toList.map Token.of, false⟩ url = true ↔
      ∃ front pre path verb tail, url.toList = front ++ (pre ++ (path ++ (verb ++ tail))) ∧ '\n' ∉ pre ∧
        (Pattern.chain ((ep.path.toList.map Token.of).map Token.pattern)).Spans (front ++ pre) path (verb ++ tail) ∧
        verb.map folded = ("?MT=".toList ++ ep.verb.text.toList).map folded ∧ Token.Ends tail := by
  have hplain : ∀ c ∈ "?MT=".toList ++ ep.verb.text.toList, c ≠ '*' ∧ c ≠ '^' :=
    List.forall_mem_append.2 ⟨forall_mem_of_all (by decide), hchars⟩
  rw [UrlFilter.admits, Pattern.isIn_iff, UrlFilter.occursIn_iff, patterns_filterText]
  simp only [Pattern.spans_chain_cons, Pattern.spans_chain_append, Pattern.spans_chain_nil,
    Token.spans_iff_folded hplain]
  constructor
  · rintro ⟨front, _, post, hurl, -, ⟨pre, _, rfl, hpre, path, _, rfl, hpath, verb, _, rfl, hverb, u, _, rfl,
      hu, rfl⟩, -⟩
    refine ⟨front, pre, path, verb, u ++ post, ?_, ?_, ?_, hverb, Token.ends_iff.2 ⟨u, post, rfl, hu⟩⟩
    · simpa using hurl
    · exact fun hmem => absurd (hpre _ hmem) (by decide)
    · simpa using hpath
  · rintro ⟨front, pre, path, verb, tail, hurl, hpre, hpath, hverb, htail⟩
    obtain ⟨u, post, rfl, hu⟩ := (@Token.ends_iff tail (front ++ pre ++ path ++ verb)).1 htail
    refine ⟨front, pre ++ (path ++ (verb ++ (u ++ []))), post, ?_, .anywhere front, ?_, nofun⟩
    · simpa using hurl
    · refine ⟨pre, _, rfl, fun c hc => ?_, path, _, rfl, ?_, verb, _, rfl, hverb, u, [], rfl, ?_, rfl⟩
      · have hline : c ≠ '\n' := fun he => hpre (he ▸ hc)
        simpa using hline
      · simpa using hpath
      · simpa using hu

/-- The filter of an endpoint admits the URLs that the endpoint is meant for. -/
theorem IsPlain.admits_filter (h : ep.IsPlain) {url : String} (hurl : ep.Means url.toList) :
    UrlFilter.admits ⟨.none, ep.filterText.toList.map Token.of, false⟩ url = true := by
  rw [admits_filter_iff h.resolved.not_star]
  generalize url.toList = s at hurl
  cases hurl with
  | @url pre path verb tail hpre hpath hverb htail =>
    refine ⟨[], pre, path, "?MT=".toList ++ verb, tail, by simp, hpre, Token.spans_of_filled hpath, ?_, htail⟩
    rw [List.map_append, List.map_append, hverb]

end Endpoint

/-! ### Rules of mocks -/

namespace Mock

variable {ep : Endpoint}

theorem filterText_template (h : ep.IsResolved) : filterText ep.template ep.verb = ep.filterText := by
  obtain ⟨ss, -, hpath⟩ := h.path
  have hstart : startsWith ['/'] ep.path.toList = true := by
    rw [hpath, String.toList_ofList]
    rfl
  rw [filterText, h.splitTemplate]
  simp only [h.verb.isEmpty, hstart, if_true, if_neg Bool.false_ne_true]
  rfl

theorem trimmed_template (h : ep.IsResolved) : trimmed ep.template = ep.template := by
  rw [trimmed, trim_of_not_blank fun c hc => (h.template_cases hc).2, String.ofList_toList]

/-- A mock with the template and the verb of an endpoint gets its rule under any id. -/
theorem rule_of_isResolved {m : Mock} (h : ep.IsResolved) (ht : m.urlTemplate = ep.template)
    (hv : m.verb = ep.verb) (id : Nat) :
    m.rule id = .ok ⟨id, Rule.defaultPriority, .redirect (dataUrl m.body),
      ⟨ep.filterText, [.xmlHttpRequest], [.post]⟩⟩ := by
  have hne : ep.template ≠ "" := by
    intro he
    have hnil := congrArg String.toList he
    rw [Endpoint.toList_template] at hnil
    simp [queryText] at hnil
  rw [rule_eq_ok_iff, ht, hv, trimmed_template h, filterText_template h]
  exact ⟨⟨hne, h.isAscii_filterText⟩, rfl⟩

theorem rule_of_isPlain {m : Mock} (h : ep.IsPlain) (ht : m.urlTemplate = ep.template)
    (hv : m.verb = ep.verb) (id : Nat) :
    m.rule id = .ok ⟨id, Rule.defaultPriority, .redirect (dataUrl m.body),
      ⟨ep.filterText, [.xmlHttpRequest], [.post]⟩⟩ :=
  rule_of_isResolved h.resolved ht hv id

end Mock

namespace Draft

variable {e : TypedEndpoint} {fallback : Verb} {template : String}

/-- A draft holds what its endpoint is compiled to and the tree of its template. -/
theorem compose_eq_ok_iff {d : Draft} :
    compose (String.ofList e.text) fallback template = .ok d ↔ ∃ tree ep,
      Template.parse template.toList = .ok tree ∧
      Endpoint.compile (String.ofList e.text) fallback = .ok ep ∧
      d = ⟨none, String.ofList e.text, ep.template, ep.verb, tree.zeroStatus, tree.zeroStatus⟩ := by
  have htrim : trim e.text = e.text := trim_of_not_blank e.not_blank
  have hne : String.ofList e.text ≠ "" := by simpa using e.text_ne_nil
  have hvalid : Endpoint.validate (String.ofList e.text) = .ok () := by
    rw [Endpoint.validate, String.toList_ofList, htrim, if_pos e.isEndpoint_text]
  have hstart : compose (String.ofList e.text) fallback template =
      Template.parse template.toList >>= assemble (String.ofList e.text) fallback := by
    simp only [compose, trimmed, String.toList_ofList, htrim, if_neg hne, hvalid]
    by_cases hblank : isBlankText template = true
    · have hparse : Template.parse template.toList = .error (.empty "template") := if_pos hblank
      rw [hparse, if_pos hblank]
      rfl
    · rw [if_neg hblank]
      rfl
  rw [hstart, bind_eq_ok]
  constructor
  · rintro ⟨tree, htree, h⟩
    obtain ⟨ep, hep, h⟩ := bind_eq_ok.1 h
    cases h
    exact ⟨tree, ep, htree, hep, rfl⟩
  · rintro ⟨tree, ep, htree, hep, rfl⟩
    exact ⟨tree, htree, bind_eq_ok.2 ⟨ep, hep, rfl⟩⟩

/-- A draft is composed exactly if the host can be one and the template can be read. -/
theorem exists_compose_iff : (∃ d, compose (String.ofList e.text) fallback template = .ok d) ↔
    e.HasHost ∧ ∃ tree, Template.parse template.toList = .ok tree := by
  simp only [compose_eq_ok_iff, Endpoint.compile_eq_ok_iff]
  constructor
  · rintro ⟨d, tree, ep, htree, ⟨hhost, -⟩, -⟩
    exact ⟨hhost, tree, htree⟩
  · rintro ⟨hhost, tree, htree⟩
    exact ⟨_, tree, _, htree, ⟨hhost, rfl⟩, rfl⟩

end Draft

/-! ### Interception -/

namespace Engine

variable {writable : Bool} {entries : Members} {eng eng' : Engine} {out : Report}

/-- Where there were managed rules only, the planned ones are all that is left. -/
theorem table_of_run_sync (hmanaged : ∀ r ∈ eng.table, isManaged r.id = true)
    (hrun : (sync writable entries).run eng = (.ok out, eng')) :
    Table.Accepts [] (planned entries) ∧ eng'.table = Table.sorted (planned entries) := by
  have hforeign : eng.table.foreign = [] := List.filter_eq_nil_iff.2 fun r hr => by simp [hmanaged r hr]
  obtain ⟨ha, -, h⟩ | ⟨-, cause, h⟩ := run_sync_cases writable entries eng
  · rw [hforeign] at ha h
    cases h.symm.trans hrun
    exact ⟨ha, rfl⟩
  · cases h.symm.trans hrun

/-- If an enabled mock has a rule under any id, then after a reconciliation of managed rules some rule
decides about the requests that the rules of the mock admit. -/
theorem evaluate_of_mem {m : Mock} {q : Request} (hon : Mocks.isOn entries = true)
    (hm : m ∈ (Records.ofEntries entries).mocks) (he : m.enabled = true)
    (hrule : ∀ id, ∃ r, m.rule id = .ok r ∧ Table.admits r q = .ok true)
    (hmanaged : ∀ r ∈ eng.table, isManaged r.id = true)
    (hrun : (sync writable entries).run eng = (.ok out, eng')) :
    ∃ rule, eng'.table.evaluate q = .ok (some rule) := by
  obtain ⟨ha, htable⟩ := table_of_run_sync hmanaged hrun
  have hperm := Table.sorted_perm (planned entries)
  rw [planned_of_isOn hon] at ha htable hperm
  obtain ⟨id, r, hr, hok⟩ | hfull := Plan.exists_rule_of_mem hm he fun id =>
    let ⟨r, hr, _⟩ := hrule id; ⟨r, hr⟩
  · obtain ⟨r', hok', hadmits⟩ := hrule id
    cases hok.symm.trans hok'
    obtain ⟨best, hbest, hsome⟩ := Table.evaluate_isSome_iff
      (t := eng'.table) (fun r hr => ha.readable r (hperm.mem_iff.1 (htable ▸ hr))) q
    obtain ⟨rule, rfl⟩ := Option.isSome_iff_exists.1 (hsome.2 ⟨r, htable ▸ hperm.mem_iff.2 hr, hadmits⟩)
    exact ⟨rule, hbest⟩
  · have hfits := ha.fits
    rw [List.nil_append] at hfits
    have hlimit : ruleLimit < lastManagedId := by decide
    omega

/-- However an endpoint is typed: when a draft for it is saved in a store whose switch is on, and a
table of managed rules is reconciled, then some rule decides about each request for the endpoint. -/
theorem evaluate_of_saved (e : TypedEndpoint) {letters : List Char} {template : String} {d : Draft}
    {ep : Endpoint} {s s' : Store} {drawn : MockId} {saved : Except StoreError Mock} {url : String}
    (hne : letters ≠ []) (hl : ∀ c ∈ letters, isAsciiLetter c = true)
    (hd : Draft.compose (String.ofList e.text) (.of letters) template = .ok d)
    (hep : Endpoint.compile (String.ofList e.text) (.of letters) = .ok ep)
    (hon : Mocks.isOn s.entries = true)
    (hsave : s.perform (Mocks.saveDraft d drawn) = (saved, s'))
    (hmanaged : ∀ r ∈ eng.table, isManaged r.id = true)
    (hrun : (sync writable s'.entries).run eng = (.ok out, eng'))
    (hurl : ep.Means url.toList) :
    ∃ rule, eng'.table.evaluate ⟨url, .post, .xmlHttpRequest⟩ = .ok (some rule) := by
  have hplain : ep.IsPlain := Endpoint.isPlain_of_compile hne hl hep
  obtain ⟨tree, ep', -, hep', hdraft⟩ := Draft.compose_eq_ok_iff.1 hd
  cases hep'.symm.trans hep
  have ht : d.urlTemplate = ep.template := by rw [hdraft]
  have hv : d.verb = ep.verb := by rw [hdraft]
  obtain ⟨taken, hm⟩ := Mocks.perform_saveDraft hsave
  have hverb : (d.toMock drawn taken).readBack.verb = ep.verb := by
    rw [← hplain.verb.of_text, ← hv]
    rfl
  have hrule := Mock.rule_of_isPlain (m := (d.toMock drawn taken).readBack) hplain ht hverb
  refine evaluate_of_mem (Mocks.isOn_perform_saveDraft hsave ▸ hon) hm rfl (fun id => ?_) hmanaged hrun
  refine ⟨_, hrule id, ?_⟩
  simp [Table.admits, hplain.parse_filterText, hplain.admits_filter hurl, Except.map]

/-- `https://h/api/<id>?MT=put` -/
def userEndpoint : TypedEndpoint where
  origin := some (true, "h".toList)
  segments := [.literal "api".toList (by decide) (forall_mem_of_all (by decide)) (by decide) (by decide),
    .placeholder "id".toList (by decide) (forall_mem_of_all (by decide))]
  verb := some "put".toList
  host := by
    rintro _ ⟨⟩
    exact ⟨⟨by decide, forall_mem_of_all (by decide)⟩, forall_mem_of_all (by decide)⟩
  path := List.cons_ne_nil _ _
  letters := by
    rintro _ ⟨⟩
    exact forall_mem_of_all (by decide)

def userDraft : Draft :=
  ⟨none, "https://h/api/<id>?MT=put", "/api/*?MT=PUT", ⟨"PUT"⟩, .obj [], .obj []⟩

def userEntries : Members := (Store.inMemory.perform (Mocks.saveDraft userDraft ⟨1⟩)).2.entries

def userRule : Rule :=
  ⟨1, 1, .redirect "data:application/json,%7B%7D",
    ⟨"*/api/*?MT=PUT^", [.xmlHttpRequest], [.post]⟩⟩

theorem planned_userEntries : planned userEntries = [userRule] :=
  (planned_of_isOn rfl).trans (Plan.rules_ofMocks_singleton (m := userDraft.toMock ⟨1⟩ []) rfl rfl)

theorem run_sync_userEntries : (sync true userEntries).run inMemory =
    (.ok (report userEntries []), inMemory.holding (Table.sorted [userRule])) := by
  have hread : ∀ r ∈ [userRule], ∃ f, UrlFilter.parse r.condition.urlFilter = .ok f := by
    simp only [List.mem_singleton, forall_eq]
    exact UrlFilter.exists_parse (by decide) (by decide)
  have ha : Table.Accepts inMemory.table.foreign (planned userEntries) := by
    rw [planned_userEntries]
    exact ⟨by decide, by decide, by decide, hread, by decide⟩
  have hrun := run_sync_of_accepts ha (Or.inl rfl : CanWrite true inMemory)
  rw [planned_userEntries] at hrun
  exact hrun

theorem evaluate_of_saved_user :
    Draft.compose (String.ofList userEndpoint.text) (.of "get".toList) "{}" = .ok userDraft ∧
      ∃ report eng rule, (sync true userEntries).run inMemory = (.ok report, eng) ∧
        eng.table.evaluate ⟨"https://x/api/a/b?MT=Put&y=1", .post, .xmlHttpRequest⟩ =
          .ok (some rule) := by
  have hcompose : Draft.compose (String.ofList userEndpoint.text) (.of "get".toList) "{}" =
      .ok userDraft := rfl
  have hcompile : Endpoint.compile (String.ofList userEndpoint.text) (.of "get".toList) =
      .ok ⟨"/api/*", ⟨"PUT"⟩⟩ := rfl
  have hsave : Store.inMemory.perform (Mocks.saveDraft userDraft ⟨1⟩) =
      (.ok (userDraft.toMock ⟨1⟩ []), (Store.inMemory.perform (Mocks.saveDraft userDraft ⟨1⟩)).2) := rfl
  have hpath : Filled "/api/*".toList "/api/a/b".toList :=
    .char (by decide) <| .char (by decide) <| .char (by decide) <| .char (by decide) <|
      .char (by decide) <| .star "a/b".toList (by decide) .nil
  have hmeans : Endpoint.Means ⟨"/api/*", ⟨"PUT"⟩⟩ ("https://x".toList ++ "/api/a/b".toList ++
      "?MT=".toList ++ "Put".toList ++ "&y=1".toList) :=
    .url (by decide) hpath (by decide) (.more (Token.isSeparator_iff.1 (by decide)) _)
  have hurl : Endpoint.Means ⟨"/api/*", ⟨"PUT"⟩⟩ "https://x/api/a/b?MT=Put&y=1".toList := hmeans
  obtain ⟨rule, hrule⟩ := evaluate_of_saved userEndpoint (by decide) (forall_mem_of_all (by decide))
    hcompose hcompile rfl hsave (by simp [inMemory]) run_sync_userEntries hurl
  exact ⟨hcompose, _, _, rule, run_sync_userEntries, hrule⟩

end Engine

end MockRedirect
