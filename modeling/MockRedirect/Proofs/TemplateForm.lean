import MockRedirect.Archive
import MockRedirect.Proofs.Endpoint
import MockRedirect.Proofs.Reopen
import MockRedirect.Proofs.Resolved
/-! Template and verb of a stored mock never come apart: whatever is typed, and whatever is done to a mock
later, its template is a path and then its verb. -/
namespace MockRedirect
open Text

/-! ### Endpoints -/

namespace Endpoint

/-- The path of a template: it begins with a slash and has no question mark. -/
structure IsPath (path : String) : Prop where
  slash : path.toList.head? = some '/'
  no_query : '?' ∉ path.toList

theorem notMem_starNumbers {path : List Char} (h : '?' ∉ path) : ∀ s ∈ starNumbers path, '?' ∉ s :=
  forall_mem_starNumbers (by decide) fun _ hs _ hc => h (mem_of_mem_split hs hc).1

theorem notMem_of_parts {raw s path : List Char} {v : Option Verb} (h : parts raw s = .ok (path, v)) :
    '?' ∉ path := by
  rw [parts] at h
  split at h
  · split at h
    · next a ha =>
      cases h
      exact Address.notMem_path_of_read ha
    · contradiction
  · cases h
    exact fun hc => (mem_of_mem_before hc).2 rfl

/-- Whatever endpoint is accepted, its path is one for a template. -/
theorem isPath_of_compile {text : String} {fallback : Verb} {e : Endpoint}
    (h : compile text fallback = .ok e) : IsPath e.path := by
  rw [compile] at h
  split at h
  · contradiction
  · obtain ⟨⟨path, v⟩, hparts, h⟩ := bind_eq_ok.1 h
    cases h
    dsimp only
    refine ⟨by rw [String.toList_ofList]; rfl, fun hc => ?_⟩
    rw [String.toList_ofList] at hc
    obtain hc | hc := List.mem_cons.1 hc
    · exact absurd hc (by decide)
    · obtain hc | ⟨s, hs, hc⟩ := mem_join hc
      · exact absurd hc (by decide)
      · exact notMem_starNumbers (notMem_of_parts hparts) s hs hc

/-- What begins with a slash has a path for a template, also when it cannot be read as a URL. -/
theorem isPath_splitTemplate {text : String} (h : text.toList.head? = some '/') :
    IsPath (splitTemplate text).1 := by
  obtain ⟨s, hs⟩ : ∃ s, text.toList = '/' :: s := by
    cases htext : text.toList with
    | nil => simp [htext] at h
    | cons c s => exact ⟨s, by simpa [htext] using h⟩
  rw [splitTemplate, hs]
  split
  · next a ha =>
    refine ⟨?_, ?_⟩
    · rw [String.toList_ofList, Address.head?_path_of_read ha]
    · rw [String.toList_ofList]
      exact Address.notMem_path_of_read ha
  · refine ⟨?_, ?_⟩
    · rw [String.toList_ofList]
      rfl
    · rw [String.toList_ofList]
      exact fun hc => (mem_of_mem_before hc).2 rfl

theorem templateText_eq (path : String) (verb : Verb) :
    templateText path verb = path ++ "?MT=" ++ verb.text := by
  simp [templateText, Verb.param, String.append_assoc]

end Endpoint

/-! ### Verbs -/

theorem Text.isAsciiLower_upper (c : Char) : isAsciiLower (upper c) = false := by
  by_cases h : isAsciiLower c = true
  · exact of_ascii (p := fun c => isAsciiLower c = true → isAsciiLower (upper c) = false)
      (by decide +kernel) (toNat_lt_of_isAsciiLower h) h
  · rw [upper, if_neg h]
    simpa using h

theorem Text.uppercase_eq_self {s : List Char} (h : ∀ c ∈ s, isAsciiLower c = false) :
    uppercase s = s :=
  (List.map_congr_left fun c hc => if_neg (by simp [h c hc])).trans (List.map_id' s)

/-- A verb is in normal form if it is trimmed and has no small letter. -/
theorem Verb.isNormal_iff {v : Verb} : v.IsNormal ↔
    trim v.text.toList = v.text.toList ∧ ∀ c ∈ v.text.toList, isAsciiLower c = false := by
  constructor
  · intro h
    have htext : uppercase (trim v.text.toList) = v.text.toList := by
      have hof := congrArg (fun v => v.text.toList) (show of v.text.toList = v from h)
      dsimp only [of] at hof
      rwa [String.toList_ofList] at hof
    constructor
    · rw [← htext, trim_uppercase, trim_trim]
    · intro c hc
      rw [← htext] at hc
      obtain ⟨d, -, rfl⟩ := List.mem_map.1 hc
      exact isAsciiLower_upper d
  · rintro ⟨htrim, hlower⟩
    rw [IsNormal, of, htrim, uppercase_eq_self hlower, String.ofList_toList]

/-! ### Mocks -/

/-- The template of a mock is a path, and then its verb, which is trimmed and has no small letter. -/
structure Mock.InForm (m : Mock) : Prop where
  template : ∃ path, Endpoint.IsPath path ∧ m.urlTemplate = path ++ "?MT=" ++ m.verb.text
  trimmed : trim m.verb.text.toList = m.verb.text.toList
  no_lower : ∀ c ∈ m.verb.text.toList, isAsciiLower c = false

namespace Mock

variable {m : Mock}

theorem InForm.verb (h : m.InForm) : m.verb.IsNormal := Verb.isNormal_iff.2 ⟨h.trimmed, h.no_lower⟩

theorem inForm_of_template {path : String} (hpath : Endpoint.IsPath path)
    (htemplate : m.urlTemplate = Endpoint.templateText path m.verb) (hverb : m.verb.IsNormal) :
    m.InForm := by
  obtain ⟨htrim, hlower⟩ := Verb.isNormal_iff.1 hverb
  exact ⟨⟨path, hpath, htemplate.trans (Endpoint.templateText_eq path m.verb)⟩, htrim, hlower⟩

theorem InForm.readBack (h : m.InForm) : m.readBack.InForm := by
  have hverb : Verb.of m.verb.text.toList = m.verb := h.verb
  constructor <;> rw [Mock.readBack, hverb]
  · exact h.template
  · exact h.trimmed
  · exact h.no_lower

/-- Another verb is put in place of the old one in the template. -/
theorem InForm.withVerb (h : m.InForm) {verb : Verb} (hv : verb.IsNormal) :
    (Mocks.withVerb verb m).InForm := by
  obtain ⟨path, hpath, htemplate⟩ := h.template
  have hslash : m.urlTemplate.toList.head? = some '/' := by
    simp [htemplate, List.head?_append, hpath.slash]
  exact inForm_of_template (Endpoint.isPath_splitTemplate hslash) rfl hv

theorem InForm.withUrl (h : m.InForm) {url : String} {new : Mock}
    (hnew : Mocks.withUrl url m = .ok new) : new.InForm := by
  obtain ⟨_, -, hnew⟩ := bind_eq_ok.1 hnew
  obtain ⟨e, he, hnew⟩ := bind_eq_ok.1 hnew
  cases hnew
  exact inForm_of_template (Endpoint.isPath_of_compile he) rfl (Endpoint.isNormal_of_compile h.verb he)

end Mock

/-! ### Drafts -/

namespace Draft

variable {d : Draft}

/-- A draft made from a template, from a tree, or from a recording in an archive. What is changed in it
before it is saved is neither its template nor its verb. -/
inductive Made : Draft → Prop
  | compose {url template : String} {fallback : Verb} {d : Draft} (hf : fallback.IsNormal)
    (h : Draft.compose url fallback template = .ok d) : Made d
  | ofTree {url : String} {fallback : Verb} {tree : Json} {d : Draft} (hf : fallback.IsNormal)
    (h : Draft.ofTree url fallback tree = .ok d) : Made d
  | recorded {entries : List Recording} {marker : String} {d : Draft}
    (h : d ∈ Archive.drafts entries marker) : Made d
  | edited {d d' : Draft} (h : Made d) (htemplate : d'.urlTemplate = d.urlTemplate)
    (hverb : d'.verb = d.verb) : Made d'

theorem exists_endpoint_of_ofTree {url : String} {fallback : Verb} {tree : Json}
    (h : ofTree url fallback tree = .ok d) :
    ∃ e, Endpoint.compile (trimmed url) fallback = .ok e ∧
      d = ⟨none, trimmed url, e.template, e.verb, tree.zeroStatus, tree.zeroStatus⟩ := by
  rw [ofTree] at h
  dsimp only at h
  split at h
  · cases h
  · obtain ⟨_, -, h⟩ := bind_eq_ok.1 h
    obtain ⟨e, he, h⟩ := bind_eq_ok.1 h
    cases h
    exact ⟨e, he, rfl⟩

/-- What an archive gives is made from a tree. -/
theorem exists_ofTree_of_draft? {r : Recording} (h : Archive.draft? r = some d) :
    ∃ (fallback : Verb) (tree : Json), fallback.IsNormal ∧ ofTree r.url fallback tree = .ok d := by
  rw [Archive.draft?] at h
  obtain ⟨_, -, h⟩ := Option.bind_eq_some_iff.1 h
  obtain ⟨_, -, h⟩ := Option.bind_eq_some_iff.1 h
  obtain ⟨body, -, h⟩ := Option.bind_eq_some_iff.1 h
  obtain ⟨address, -, h⟩ := Option.bind_eq_some_iff.1 h
  refine ⟨address.verb?.getD .get, body, ?_, ?_⟩
  · cases hverb : address.verb? with
    | none => decide
    | some v => exact Address.isNormal_of_verb? hverb
  · cases hd : ofTree r.url (address.verb?.getD .get) body with
    | error e => simp [hd, Except.toOption] at h
    | ok d' => simpa [hd, Except.toOption] using h

/-- Template and verb of such a draft are those of an endpoint. -/
theorem Made.exists_endpoint (h : d.Made) : ∃ e : Endpoint,
    Endpoint.IsPath e.path ∧ e.verb.IsNormal ∧ d.urlTemplate = e.template ∧ d.verb = e.verb := by
  have htree {url : String} {fallback : Verb} {tree : Json} {d : Draft} (hf : fallback.IsNormal)
      (h : Draft.ofTree url fallback tree = .ok d) : ∃ e : Endpoint,
      Endpoint.IsPath e.path ∧ e.verb.IsNormal ∧ d.urlTemplate = e.template ∧ d.verb = e.verb := by
    obtain ⟨e, he, rfl⟩ := exists_endpoint_of_ofTree h
    exact ⟨e, Endpoint.isPath_of_compile he, Endpoint.isNormal_of_compile hf he, rfl, rfl⟩
  induction h with
  | compose hf h =>
    obtain ⟨_, e, -, he, rfl⟩ := exists_tree_of_compose h
    exact ⟨e, Endpoint.isPath_of_compile he, Endpoint.isNormal_of_compile hf he, rfl, rfl⟩
  | ofTree hf h => exact htree hf h
  | recorded h =>
    obtain ⟨r, -, hr⟩ := List.mem_filterMap.1 h
    obtain ⟨fallback, tree, hf, h⟩ := exists_ofTree_of_draft? hr
    exact htree hf h
  | edited _ htemplate hverb ih =>
    obtain ⟨e, hpath, hnormal, htemplate', hverb'⟩ := ih
    exact ⟨e, hpath, hnormal, htemplate.trans htemplate', hverb.trans hverb'⟩

/-- A mock with template and verb of such a draft. -/
theorem Made.inForm (h : d.Made) {m : Mock} (htemplate : m.urlTemplate = d.urlTemplate)
    (hverb : m.verb = d.verb) : m.InForm := by
  obtain ⟨e, hpath, hnormal, htemplate', hverb'⟩ := h.exists_endpoint
  have heq : m.verb = e.verb := hverb.trans hverb'
  refine Mock.inForm_of_template hpath ?_ (heq ▸ hnormal)
  rw [heq, htemplate, htemplate']
  rfl

end Draft

/-! ### Calls -/

namespace Call
open Store

/-- The call brings in nothing but such drafts, and verbs in normal form. -/
def Drafted : Call → Prop
  | save _ => False
  | saveDraft d _ => d.Made
  | addAll ds _ => ∀ d ∈ ds, d.Made
  | updateVerb _ verb => verb.IsNormal
  | _ => True

/-- The mocks that a call answers. -/
def answered : (c : Call) → c.Answer → List Mock
  | list, ms | addAll _ _, ms => ms
  | get _, m | save _, m | saveDraft _ _, m | updateVerb _ _, m | updateField _ _ _, m
  | pushItem _ _, m | removeItem _ _ _, m => [m]
  | _, _ => []

variable {c : Call} {a : c.Answer} {rs rs' : Records} {m old new : Mock} {s : Store}

theorem inForm_of_edits (h : Edits old c new) (hc : c.Drafted) (hold : old.InForm) : new.InForm := by
  cases h with
  | updateVerb id verb => exact hold.withVerb hc
  | updateUrl h => exact hold.withUrl h
  | toggle _ | updateField _ | pushItem _ | removeItem _ =>
    exact ⟨hold.template, hold.trimmed, hold.no_lower⟩

/-- A mock that is added takes template and verb from one of the drafts. -/
theorem exists_made_of_mem_fromDrafts {draw : Nat → MockId} {i : Nat} {taken : List MockId}
    {ds : List Draft} (h : m ∈ Mocks.fromDrafts draw i taken ds) :
    ∃ d ∈ ds, m.urlTemplate = d.urlTemplate ∧ m.verb = d.verb := by
  induction ds generalizing i taken with
  | nil => contradiction
  | cons d ds ih =>
    obtain rfl | h := List.mem_cons.1 h
    · exact ⟨d, List.mem_cons_self, rfl, rfl⟩
    · obtain ⟨d', hd', hm⟩ := ih h
      exact ⟨d', List.mem_cons_of_mem _ hd', hm⟩

theorem inForm_of_brings (h : c.Brings rs m) (hc : c.Drafted)
    (hold : ∀ old, .mock old ∈ rs → old.InForm) : m.InForm := by
  cases h with
  | save m => exact hc.elim
  | saveDraft d drawn => exact Draft.Made.inForm hc rfl rfl
  | addAll hm =>
    obtain ⟨d, hd, htemplate, hverb⟩ := exists_made_of_mem_fromDrafts hm
    exact (hc d hd).inForm htemplate hverb
  | edit hmem h => exact inForm_of_edits h hc (hold _ hmem)

theorem inForm_of_changes (h : c.Changes rs a rs') (hc : c.Drafted)
    (hold : ∀ old, .mock old ∈ rs → old.InForm) : ∀ m, .mock m ∈ rs' → m.InForm := by
  intro m hm
  obtain hmem | ⟨m', heq, hbrings⟩ := mem_of_changes h hm
  · exact hold m hmem
  · cases heq
    exact inForm_of_brings hbrings hc hold

/-- The mocks that a change answers are among the records it writes. -/
theorem mem_of_answered (h : c.Changes rs a rs') : ∀ m ∈ c.answered a, .mock m ∈ rs' := by
  intro m hm
  cases h with
  | save m' =>
    obtain rfl := List.mem_singleton.1 hm
    exact Records.mock_mem_put rs m
  | saveDraft d drawn =>
    obtain rfl := List.mem_singleton.1 hm
    exact Records.mock_mem_put rs _
  | addAll ds draw => exact List.mem_append_right _ (List.mem_map_of_mem hm)
  | edit hc hold hnew =>
    obtain ⟨pre, post, -, hreplace, -⟩ := Records.replace_of_find? hold ‹_›
    rw [hreplace]
    refine List.mem_append_right _ (List.mem_cons.2 (.inl (congrArg _ ?_)))
    cases c with
    | updateVerb _ _ | updateField _ _ _ | pushItem _ _ | removeItem _ _ _ =>
      cases hc
      exact List.mem_singleton.1 hm
    | toggle _ | updateUrl _ _ => contradiction
    | _ => contradiction
  | delete _ => contradiction
  | deleteAll => contradiction

/-- What is looked up is in the store. -/
theorem mem_of_isRead {entries new : Members} (hc : c.IsRead) (h : c.operation entries = .ok (a, new)) :
    ∀ m ∈ c.answered a, m ∈ (Records.ofEntries entries).mocks := by
  intro m hm
  cases c with
  | list =>
    cases h
    exact hm
  | get id =>
    obtain ⟨hfind, -⟩ := get_eq_ok.1 h
    obtain rfl := List.mem_singleton.1 hm
    exact List.mem_of_find?_eq_some hfind
  | globalEnabled => contradiction
  | _ => exact hc.elim

/-- What is read back of the records that are written is in form too. -/
theorem inForm_of_stored (h : c.Changes (.ofEntries s.entries) a rs')
    (hrs : ∀ m, .mock m ∈ rs' → m.InForm) :
    ∀ m, .mock m ∈ Records.ofEntries (s.set rs'.toEntries).entries → m.InForm := by
  intro m hm
  rw [Records.ofEntries_set] at hm
  obtain ⟨r, hr, heq⟩ := List.mem_map.1 hm
  cases r with
  | mock m' =>
    rw [Record.toJson, Record.ofJson_toJson] at heq
    cases heq
    exact (hrs m' hr).readBack
  | unreadable v =>
    obtain hold | ⟨_, hmock, -⟩ := mem_of_changes h hr
    · obtain ⟨w, hw⟩ := Records.exists_ofJson_of_mem hold
      have hsettled := Record.settled_ofJson w
      rw [← hw, Record.Settled, heq] at hsettled
      contradiction
    · contradiction

end Call

namespace Store

/-- All mocks in a store are in form. -/
def InForm (s : Store) : Prop := ∀ m, .mock m ∈ Records.ofEntries s.entries → m.InForm

theorem InForm.mocks {s : Store} (h : s.InForm) : ∀ m ∈ (Records.ofEntries s.entries).mocks, m.InForm := by
  intro m hm
  obtain ⟨r, hr, hmock⟩ := List.mem_filterMap.1 hm
  cases r with
  | mock m' =>
    cases hmock
    exact h m hr
  | unreadable v => contradiction

theorem operation_of_attempt {α : Type} {writable : Bool} {op : Operation α} {s t : Store} {a : α}
    (h : s.attempt writable op = (.ok a, t)) : ∃ new, op s.entries = .ok (a, new) := by
  unfold attempt at h
  cases hop : op s.entries with
  | error e => simp [hop] at h
  | ok r =>
    rw [hop] at h
    dsimp only at h
    split at h
    · cases h
      exact ⟨_, rfl⟩
    · cases h

/-- A call that succeeds leaves all mocks in form, and the mocks that it answers are. -/
theorem InForm.attempt {s t : Store} (h : s.InForm) {writable : Bool} {c : Call} (hc : c.Drafted)
    {a : c.Answer} (ht : s.attempt writable c.operation = (.ok a, t)) :
    t.InForm ∧ ∀ m ∈ c.answered a, m.InForm := by
  obtain ⟨_, hop⟩ := operation_of_attempt ht
  obtain ⟨e, he⟩ | ⟨a', new, hw, hok⟩ := Call.attempt_cases writable c s
  · cases he.symm.trans ht
  · cases hok.symm.trans ht
    obtain hsame | ⟨rs, hrs, rfl⟩ := Call.stored_of_writes hw
    · refine ⟨fun m hm => h m ?_, ?_⟩
      · rwa [Records.ofEntries_eq_map, hsame, ← Records.ofEntries_eq_map] at hm
      · cases hw with
        | read hread _ => exact fun m hm => h.mocks m (Call.mem_of_isRead hread hop m hm)
        | seed _ => exact List.forall_mem_nil _
        | setGlobal _ => exact List.forall_mem_nil _
        | records hrs =>
          exact fun m hm => Call.inForm_of_changes hrs hc h m (Call.mem_of_answered hrs m hm)
    · have hform := Call.inForm_of_changes hrs hc h
      exact ⟨Call.inForm_of_stored hrs hform, fun m hm => hform m (Call.mem_of_answered hrs m hm)⟩

/-- Whatever calls have been made on a store that was empty once, as long as mocks come from drafts: the
template of each mock that is listed, or that a further call answers, is a path and then its verb. -/
theorem inForm_of_reaches {s t : Store} (hs : s.entries = []) (h : s.Reaches (fun c _ => c.Drafted) t) :
    ∃ ms, Mocks.list t.entries = .ok (ms, []) ∧ (∀ m ∈ ms, m.InForm) ∧
      ∀ (writable : Bool) (c : Call) (a : c.Answer) (u : Store), c.Drafted →
        t.attempt writable c.operation = (.ok a, u) → ∀ m ∈ c.answered a, m.InForm := by
  have ht : t.InForm := by
    refine h.invariant ?_ fun t writable c ht hc => ?_
    · rw [InForm, hs]
      exact fun _ => nofun
    · obtain ⟨e, he⟩ | ⟨a, new, -, hok⟩ := Call.attempt_cases writable c t
      · rwa [after, he]
      · rw [after, hok]
        exact (ht.attempt hc hok).1
  exact ⟨_, rfl, ht.mocks, fun _ _ _ _ hc hok => (ht.attempt hc hok).2⟩

def oddDraft : Draft := ⟨none, "/a\\..\\é?MT=get", "/a\\..\\é?MT=GET", .get, .int 0, .int 0⟩

/-- A store with a mock whose path is resolved only when its verb is changed. -/
def oddStore : Store :=
  ((inMemory.after true .seed).after true (.saveDraft oddDraft ⟨5⟩)).after true (.updateVerb ⟨5⟩ ⟨"PUT"⟩)

theorem inForm_of_reaches_odd : Draft.compose "/a\\..\\é?MT=get" ⟨"POST"⟩ "0" = .ok oddDraft ∧
    inMemory.Reaches (fun c _ => c.Drafted) oddStore ∧
    ∃ ms, Mocks.list oddStore.entries = .ok (ms, []) ∧
      ms.map (·.urlTemplate) = ["/%C3%A9?MT=PUT"] ∧ (∀ m ∈ ms, m.InForm) ∧
      ∃ m u, oddStore.attempt true (Mocks.updateVerb ⟨5⟩ ⟨"A?"⟩) = (.ok m, u) ∧
        m.urlTemplate = "/%C3%A9?MT=A?" ∧ m.InForm := by
  have hcompose : Draft.compose "/a\\..\\é?MT=get" ⟨"POST"⟩ "0" = .ok oddDraft := by rfl
  have hmade : oddDraft.Made := .compose (by decide) hcompose
  have hreach : inMemory.Reaches (fun c _ => c.Drafted) oddStore :=
    .step (.step (.step .refl true trivial) true hmade) true (show Verb.IsNormal _ by decide)
  obtain ⟨ms, hms, hall, hcalls⟩ := inForm_of_reaches rfl hreach
  have htemplates : (Records.ofEntries oddStore.entries).mocks.map (·.urlTemplate) =
      ["/%C3%A9?MT=PUT"] := by decide +kernel
  have hverb : (oddStore.attempt true (Mocks.updateVerb ⟨5⟩ ⟨"A?"⟩)).1.toOption.map (·.urlTemplate) =
      some "/%C3%A9?MT=A?" := by decide +kernel
  cases hms
  refine ⟨hcompose, hreach, _, rfl, htemplates, hall, ?_⟩
  rcases hr : oddStore.attempt true (Mocks.updateVerb ⟨5⟩ ⟨"A?"⟩) with ⟨r, u⟩
  cases r with
  | error e => simp [hr, Except.toOption] at hverb
  | ok m =>
    have hm : m.urlTemplate = "/%C3%A9?MT=A?" := by simpa [hr, Except.toOption] using hverb
    have hform := hcalls true (.updateVerb ⟨5⟩ ⟨"A?"⟩) m u (show Verb.IsNormal _ by decide) hr
    exact ⟨m, u, rfl, hm, hform m (List.mem_singleton_self m)⟩

end Store
end MockRedirect
