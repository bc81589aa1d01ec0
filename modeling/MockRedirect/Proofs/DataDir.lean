import MockRedirect.Proofs.Console
import MockRedirect.Proofs.Lasting
import MockRedirect.Proofs.TableFile
import MockRedirect.Proofs.TemplateForm
import MockRedirect.Proofs.Watch
/-! Data directories whose rule table is in step with the store, and what commands make of them. -/
namespace MockRedirect
open List

/-! ### Files -/

/-- What is at the place of a file that is written like this. -/
def Backing.fileState : Backing → FileState
  | .file (some content) => .text content
  | _ => .absent

namespace Command

theorem files_eq (w : Workspace) : files w = ⟨w.store.backing.fileState, w.engine.backing.fileState⟩ := rfl

theorem openStore_text (content : String) :
    openStore (.text content) = (Store.openFile (some content)).mapError .json := rfl

theorem openEngine_text (content : String) : openEngine (.text content) = Engine.openFile (some content) := rfl

end Command

namespace Store
open Command

variable {s : Store} {file : FileState} {new : Members}

/-- The file of a store can be opened again with the same entries, unless they are nested too deeply. -/
structure Kept (s : Store) : Prop where
  file : ∃ text, s.backing = .file text
  reopens : (∃ t, openStore s.backing.fileState = .ok t ∧ t.entries = s.entries) ∨
    ∃ p, openStore s.backing.fileState = .error (.json ⟨.tooDeep, some p⟩)

theorem fileState_of_openStore (h : openStore file = .ok s) :
    s.backing.fileState = file ∧ ∃ text, s.backing = .file text := by
  cases file with
  | absent =>
    cases h
    exact ⟨rfl, none, rfl⟩
  | unreadable => cases h
  | text content =>
    rw [openStore_text, openFile] at h
    cases hparse : parse content with
    | error e =>
      rw [hparse] at h
      cases h
    | ok entries =>
      rw [hparse] at h
      cases h
      exact ⟨rfl, some content, rfl⟩

theorem kept_of_openStore (h : openStore file = .ok s) : s.Kept := by
  obtain ⟨hfile, hbacking⟩ := fileState_of_openStore h
  refine ⟨hbacking, .inl ⟨s, ?_, rfl⟩⟩
  rw [hfile, h]

/-- What is written goes to the file as a whole. -/
theorem Kept.set (h : s.Kept) (hnew : (s.set new).Lasting) : (s.set new).Kept := by
  by_cases hnil : new = []
  · rwa [hnil, set_nil]
  · obtain ⟨text, hfile⟩ := h.file
    have hbacking : (s.set new).backing = .file (some (fileText (s.set new).entries)) := by
      rw [Store.set, if_neg hnil, announce, write, hfile]
    refine ⟨⟨_, hbacking⟩, ?_⟩
    rw [hbacking, Backing.fileState, openStore_text]
    obtain ⟨hok, herror⟩ := openFile_fileText hnew
    by_cases hdepth : (Json.obj (s.set new).entries).depth ≤ Json.depthLimit
    · rw [hok hdepth]
      exact .inl ⟨_, rfl, rfl⟩
    · obtain ⟨p, hp⟩ := herror hdepth
      rw [hp]
      exact .inr ⟨p, rfl⟩

end Store

namespace Engine
open Command

variable {e e' : Engine} {file : FileState} {entries : Members} {report : Report}

theorem fileState_of_openEngine (h : openEngine file = .ok e) : e.backing.fileState = file ∧ e.Filed := by
  cases file with
  | absent =>
    cases h
    exact ⟨rfl, filed_of_openFile (show openFile none = .ok _ from rfl)⟩
  | unreadable => cases h
  | text content =>
    rw [openEngine_text] at h
    refine ⟨?_, filed_of_openFile h⟩
    rw [openFile] at h
    cases hparse : Table.parse content with
    | error cause =>
      rw [hparse] at h
      cases h
    | ok table =>
      rw [hparse] at h
      cases h
      rfl

theorem inWords_of_planned {r : Rule} (h : r ∈ planned entries) : r.InWords := by
  have hid : r.id ≤ lastManagedId := (isManaged_iff.1 (isManaged_of_planned h)).2
  have hpriority : r.priority = Rule.defaultPriority := by
    unfold planned at h
    split at h
    · contradiction
    · exact (Plan.sound_ofMocks _).priority r h
  constructor
  · exact Nat.lt_of_le_of_lt hid (by decide)
  · rw [hpriority]
    decide

/-- What a reconciliation that succeeds leaves behind: its file is opened again as it is in memory, and the
rules for the mocks are those that the store asks for. -/
theorem Filed.reconcile (h : e.Filed) (hr : e.reconcile entries = .ok (report, e')) :
    openEngine e'.backing.fileState = .ok e' ∧ e'.table.managed ~ planned entries := by
  obtain ⟨-, -, hrun⟩ | ⟨-, cause, hrun⟩ := run_sync_cases true entries e
  · rw [Engine.reconcile, attempt, hrun] at hr
    cases hr
    have hwords : Table.InWords (Table.sorted (e.table.foreign ++ planned entries)) :=
      inWords_sorted (fun r hr => h.words r (mem_filter.1 hr).1) fun _ => inWords_of_planned
    obtain ⟨text, hfile⟩ := h.file
    have hbacking : (e.holding (Table.sorted (e.table.foreign ++ planned entries))).backing =
        .file (some (Table.fileText (Table.sorted (e.table.foreign ++ planned entries)))) := by
      rw [Engine.holding, hfile]
    have hopen : openFile (some (Table.fileText (Table.sorted (e.table.foreign ++ planned entries)))) =
        .ok (e.holding (Table.sorted (e.table.foreign ++ planned entries))) := by
      rw [openFile, Table.parse_fileText hwords, Engine.holding, hfile]
      rfl
    refine ⟨?_, (replaced entries e.table).managed⟩
    rw [hbacking]
    exact hopen
  · rw [Engine.reconcile, attempt, hrun] at hr
    cases hr

end Engine

/-! ### Mocks whose template tells their verb -/

namespace Mock

/-- If the template of a mock is a path with a verb, it is the verb of the mock. -/
def TellsVerb (m : Mock) : Prop := ∀ (path : String) (verb : Verb), '?' ∉ path.toList →
  m.urlTemplate = Endpoint.templateText path verb → m.verb = verb

variable {m : Mock}

theorem InForm.tellsVerb (h : m.InForm) : m.TellsVerb := by
  intro path verb hpath htemplate
  obtain ⟨own, hown, heq⟩ := h.template
  have hparts (path : String) (v : Verb) : (Endpoint.templateText path v).toList =
      path.toList ++ '?' :: Verb.queryOf v.text.toList := by
    simp [Endpoint.templateText, Verb.queryOf]
  rw [← Endpoint.templateText_eq, htemplate] at heq
  have htext := congrArg (Text.cut? '?' ·.toList) heq
  simp only [hparts, Text.cut?_append_cons hpath, Text.cut?_append_cons hown.no_query, Verb.queryOf,
    Option.some.injEq, Prod.mk.injEq, List.append_cancel_left_eq, String.toList_inj] at htext
  exact (congrArg Verb.mk htext.2).symm

end Mock

/-! ### Calls that leave the plan as it is -/

namespace Engine

variable {s t : Store} {id : MockId} {url : String}

theorem planned_seed {entries new : Members} (h : Mocks.seed entries = .ok ((), new)) :
    planned (Members.putAll entries new) = planned entries := by
  have hrecords : Records.ofEntries (Members.putAll entries new) = Records.ofEntries entries := by
    rw [Records.ofEntries_eq_map, Mocks.stored_seed h, ← Records.ofEntries_eq_map]
  have hswitch : Mocks.isOn (Members.putAll entries new) = Mocks.isOn entries := by
    by_cases hkey : globalKey ∈ Members.keys new
    · obtain ⟨m, hm, hkey⟩ := mem_map.1 hkey
      obtain ⟨rfl, -⟩ | ⟨rfl, hnone⟩ := Mocks.mem_seed h hm
      · contradiction
      · rw [Mocks.isOn, Mocks.isOn, hnone, Members.get?_putAll_of_mem (Mocks.nodup_keys_seed h) hm]
    · rw [Mocks.isOn, Members.get?_putAll_of_notMem hkey]
      rfl
  exact planned_congr hswitch (by rw [hrecords])

/-- A mock gets the same rule whatever endpoint it was typed as. -/
theorem ofMocks_typed (front : List Mock) (m : Mock) (back : List Mock) (typed : String) :
    Plan.ofMocks (front ++ { m with typedUrl := typed } :: back) = Plan.ofMocks (front ++ m :: back) := by
  rw [Plan.ofMocks, Plan.ofMocks, foldl_append, foldl_append, foldl_cons, foldl_cons]
  rfl

/-- If the template of a mock tells its verb, typing an endpoint that leaves the template as it is leaves the
plan as it is. -/
theorem planned_of_retyped (htells : ∀ m, (Records.ofEntries s.entries).find? id = some m → m.TellsVerb)
    (h : s.perform (Mocks.updateUrl id url) = (.ok false, t)) : planned t.entries = planned s.entries := by
  obtain ⟨new, hop, rfl⟩ := Store.perform_eq_ok.1 h
  obtain ⟨old, m, hold, hedit, hsame, rfl⟩ := Call.updateUrl_eq_ok.1 hop
  obtain ⟨e, -, he, rfl⟩ := Call.withUrl_eq_ok.1 hedit
  replace hsame : e.template = old.urlTemplate := by simpa using hsame
  -- the rule is made from template and verb: the one has not changed, and tells the other
  have hverb : old.verb = e.verb :=
    htells old hold e.path e.verb (Endpoint.isPath_of_compile he).no_query hsame.symm
  have hrecords := Call.ofEntries_set_of_changes (c := .updateUrl id url) (s := s) (.edit rfl hold hedit)
    trivial trivial
  rw [hsame, ← hverb] at hrecords
  obtain ⟨front, back, hfront, hreplace, -⟩ := Records.replace_of_find? hold
    { old with typedUrl := Text.trimmed url }
  have hmocks (m : Mock) :
      Records.mocks (front ++ .mock m :: back) = Records.mocks front ++ m :: Records.mocks back := by
    simp [Records.mocks, Record.mock?]
  rw [hsame, ← hverb]
  refine planned_congr (Mocks.isOn_set s _) ?_
  rw [hrecords, hreplace, hmocks, ofMocks_typed, ← hmocks, ← hfront]

end Engine

/-! ### Data directories in step -/

namespace DataDir
open Command

/-- Both files can be opened, and the rules for the mocks are those that the store asks for. -/
def InStep (dir : DataDir) : Prop := ∃ store engine, openStore dir.store = .ok store ∧
  openEngine dir.rules = .ok engine ∧ engine.table.managed ~ Engine.planned store.entries

/-- The file of the store is nested too deeply to be read. -/
def TooDeep (dir : DataDir) : Prop := ∃ p, openStore dir.store = .error (.json ⟨.tooDeep, some p⟩)

/-- If the store can be opened, every number in it is read back from its text. -/
def Lasting (dir : DataDir) : Prop := ∀ store, openStore dir.store = .ok store → store.Lasting

/-- Of the mocks in the store that have an id, the first has a template that tells its verb. -/
def TellsVerb (dir : DataDir) (id : MockId) : Prop := ∀ store m, openStore dir.store = .ok store →
  (Records.ofEntries store.entries).find? id = some m → m.TellsVerb

/-- If the store can be opened, all mocks in it are in form. -/
def InForm (dir : DataDir) : Prop := ∀ store, openStore dir.store = .ok store → store.InForm

theorem InForm.tellsVerb {dir : DataDir} (h : dir.InForm) (id : MockId) : dir.TellsVerb id :=
  fun store m hopen hfind => ((h store hopen).mocks m (mem_of_find?_eq_some hfind)).tellsVerb

/-- The data directories that commands lead to, each of which succeeds. -/
inductive Reaches (allowed : Surroundings → Command → Prop) (dir : DataDir) : DataDir → Prop
  | refl : Reaches allowed dir dir
  | step {now : DataDir} {around : Surroundings} {c : Command} {console : Console}
    (h : Reaches allowed dir now) (hc : allowed around c)
    (hrun : c.runOn around now = (.ok (), console)) : Reaches allowed dir console.dir

end DataDir

namespace Command

variable {around : Surroundings} {c : Command} {dir dir' : DataDir} {w : Workspace}

/-- What a command brings into a store is read back as it is: ids, verbs, and the numbers in bodies. -/
def Lasting (around : Surroundings) (c : Command) : Prop :=
  ∀ call, c.Asks around call → call.IdsInRange ∧ call.Tidy Json.Lasting

/-- The files of an open data directory that is in step. -/
theorem inStep_files (hstore : w.store.Kept) (hengine : openEngine w.engine.backing.fileState = .ok w.engine)
    (htable : w.engine.table.managed ~ Engine.planned w.store.entries) :
    (files w).InStep ∨ (files w).TooDeep := by
  rw [files_eq]
  obtain ⟨t, ht, hentries⟩ | hdeep := hstore.reopens
  · exact .inl ⟨t, w.engine, ht, hengine, hentries ▸ htable⟩
  · exact .inr hdeep

theorem entries_of_openStore_files (hstore : w.store.Kept) {store : Store}
    (hopen : openStore (files w).store = .ok store) : store.entries = w.store.entries := by
  rw [files_eq] at hopen
  obtain ⟨t, ht, hentries⟩ | ⟨p, hdeep⟩ := hstore.reopens
  · cases ht.symm.trans hopen
    exact hentries
  · cases hdeep.symm.trans hopen

theorem lasting_files (hstore : w.store.Kept) (hlasting : w.store.Lasting) : (files w).Lasting := by
  intro store hopen
  rw [Store.Lasting, entries_of_openStore_files hstore hopen]
  exact hlasting

theorem inForm_files (hstore : w.store.Kept) (hform : w.store.InForm) : (files w).InForm := by
  intro store hopen
  rw [Store.InForm, entries_of_openStore_files hstore hopen]
  exact hform

/-- Opening a data directory neither brings it in step nor puts it out of step. -/
theorem Opened.inStep_iff (h : Opened dir w) :
    dir.InStep ↔ w.engine.table.managed ~ Engine.planned w.store.entries := by
  obtain ⟨store, new, hopen, hseed, hw⟩ := h.store
  rw [hw, Store.entries_set, Engine.planned_seed hseed]
  constructor
  · rintro ⟨store', engine, hstore, hengine, htable⟩
    cases hopen.symm.trans hstore
    cases h.engine.symm.trans hengine
    exact htable
  · exact fun htable => ⟨store, w.engine, hopen, h.engine, htable⟩

theorem Opened.not_tooDeep (h : Opened dir w) : ¬dir.TooDeep := by
  rintro ⟨p, hdeep⟩
  obtain ⟨store, _, hopen, -⟩ := h.store
  cases hopen.symm.trans hdeep

theorem Opened.lasting (h : Opened dir w) (hdir : dir.Lasting) : w.store.Kept ∧ w.store.Lasting := by
  obtain ⟨store, new, hopen, hseed, hw⟩ := h.store
  have hlasting : (store.set new).Lasting :=
    Call.lasting_of_writes (.seed hseed) trivial trivial (hdir store hopen)
  rw [hw]
  exact ⟨(Store.kept_of_openStore hopen).set hlasting, hlasting⟩

theorem Opened.openEngine_eq (h : Opened dir w) :
    w.engine.Filed ∧ openEngine w.engine.backing.fileState = .ok w.engine := by
  obtain ⟨hfile, hfiled⟩ := Engine.fileState_of_openEngine h.engine
  rw [hfile]
  exact ⟨hfiled, h.engine⟩

/-- Seeding leaves the mocks as they are. -/
theorem Opened.tellsVerb (h : Opened dir w) {id : MockId} (hdir : dir.TellsVerb id) :
    ∀ m, (Records.ofEntries w.store.entries).find? id = some m → m.TellsVerb := by
  obtain ⟨store, new, hopen, hseed, hw⟩ := h.store
  rw [hw, Store.entries_set, Records.ofEntries_eq_map, Mocks.stored_seed hseed, ← Records.ofEntries_eq_map]
  exact fun m => hdir store m hopen

/-- A call on an open data directory. -/
theorem Opened.kept_of_call (h : Opened dir w) (hdir : dir.Lasting) {call : Call} {a : call.Answer}
    {store : Store} (hcall : w.store.perform call.operation = (.ok a, store)) (hin : call.IdsInRange)
    (ht : call.Tidy Json.Lasting) : store.Kept ∧ store.Lasting := by
  obtain ⟨hkept, hlasting⟩ := h.lasting hdir
  obtain ⟨new, hop, rfl⟩ := Store.perform_eq_ok.1 hcall
  have hnew := Call.lasting_of_writes (Call.writes_of_operation hop) hin ht hlasting
  exact ⟨hkept.set hnew, hnew⟩

/-- Whatever comes of a command, the data directory is in step again unless its store can no longer be
read. -/
theorem Outcome.inStep (h : Outcome around c dir dir') (hdir : dir.InStep) (hlasting : dir.Lasting)
    (hc : c.Lasting around) (htells : ∀ id url, c = .setUrl id url → dir.TellsVerb id) :
    (dir'.InStep ∨ dir'.TooDeep) ∧ dir'.Lasting := by
  cases h with
  | untouched => exact ⟨.inl hdir, hlasting⟩
  | opened hopened =>
    obtain ⟨hkept, hstore⟩ := hopened.lasting hlasting
    exact ⟨inStep_files hkept hopened.openEngine_eq.2 (hopened.inStep_iff.1 hdir), lasting_files hkept hstore⟩
  | synced hopened hask hcall hsync =>
    obtain ⟨hin, ht⟩ := hc _ hask
    obtain ⟨hkept, hstore⟩ := hopened.kept_of_call hlasting hcall hin ht
    obtain ⟨hengine, htable⟩ := hopened.openEngine_eq.1.reconcile hsync
    exact ⟨inStep_files hkept hengine htable, lasting_files hkept hstore⟩
  | @retyped w id url store hopened hurl hcall =>
    -- no rule is written here, so the plan must not have changed
    have hupdate : w.store.perform (Call.updateUrl id url).operation = (.ok false, store) := hcall
    obtain ⟨hkept, hstore⟩ := hopened.kept_of_call hlasting hupdate trivial trivial
    have hplanned := Engine.planned_of_retyped (hopened.tellsVerb (htells _ _ hurl)) hcall
    refine ⟨inStep_files hkept hopened.openEngine_eq.2 ?_, lasting_files hkept hstore⟩
    rw [hplanned]
    exact hopened.inStep_iff.1 hdir

/-! ### Directories that began empty -/

/-- The verb that comes with a command, if one does, is in normal form. -/
def VerbIsNormal : Command → Prop
  | add m | generate m _ _ => m.verb.IsNormal
  | setVerb _ verb => verb.IsNormal
  | _ => True

theorem drafted_of_asks {call : Call} (h : c.Asks around call) (hc : c.VerbIsNormal) : call.Drafted := by
  cases h with
  | add _ hd => exact .compose hc hd
  | generate _ _ hd => exact .ofTree hc hd
  | importArchive _ _ => exact fun d hd => .recorded hd
  | setVerb id verb => exact hc
  | _ => trivial

theorem Opened.inForm (h : Opened dir w) (hdir : dir.InForm) : w.store.InForm := by
  obtain ⟨store, new, hopen, hseed, hw⟩ := h.store
  have hperform : store.perform (Call.operation .seed) = (.ok (), w.store) :=
    Store.perform_eq_ok.2 ⟨new, hseed, hw⟩
  rw [← Store.attempt_true] at hperform
  exact ((hdir store hopen).attempt (c := .seed) trivial hperform).1

theorem Opened.inForm_of_call (h : Opened dir w) (hdir : dir.InForm) {call : Call} {a : call.Answer}
    {store : Store} (hcall : w.store.perform call.operation = (.ok a, store)) (hdrafted : call.Drafted) :
    store.InForm := by
  rw [← Store.attempt_true] at hcall
  exact ((h.inForm hdir).attempt hdrafted hcall).1

theorem Outcome.inForm (h : Outcome around c dir dir') (hdir : dir.InForm) (hlasting : dir.Lasting)
    (hc : c.Lasting around) (hverb : c.VerbIsNormal) : dir'.InForm := by
  cases h with
  | untouched => exact hdir
  | opened hopened => exact inForm_files (hopened.lasting hlasting).1 (hopened.inForm hdir)
  | synced hopened hask hcall hsync =>
    obtain ⟨hin, ht⟩ := hc _ hask
    exact inForm_files (hopened.kept_of_call hlasting hcall hin ht).1
      (hopened.inForm_of_call hdir hcall (drafted_of_asks hask hverb))
  | @retyped w id url store hopened hurl hcall =>
    have hupdate : w.store.perform (Call.updateUrl id url).operation = (.ok false, store) := hcall
    exact inForm_files (hopened.kept_of_call hlasting hupdate trivial trivial).1
      (hopened.inForm_of_call hdir hupdate trivial)

/-- A directory whose store is too deep cannot be opened any more. -/
theorem Outcome.eq_of_tooDeep (h : Outcome around c dir dir') (hdeep : dir.TooDeep) : dir' = dir := by
  cases h with
  | untouched => rfl
  | opened hopened | synced hopened _ _ _ | retyped hopened _ _ => exact absurd hdeep hopened.not_tooDeep

/-- However a data directory that began empty has been used by commands that succeed: as long as what they
bring in is read back, the rule table is in step with the store, or the store has become too deep to be
read. -/
theorem inStep_of_reaches (h : DataDir.Reaches (fun around c => c.Lasting around ∧ c.VerbIsNormal)
    ⟨.absent, .absent⟩ dir) : dir.InStep ∨ dir.TooDeep := by
  -- being in step alone is not kept when an endpoint is typed anew: there the mocks have to be in form
  have hall : (dir.InStep ∨ dir.TooDeep) ∧ dir.Lasting ∧ dir.InForm := by
    induction h with
    | refl =>
      have hempty {store : Store} (hopen : openStore .absent = .ok store) : store.entries = [] := by
        cases hopen
        rfl
      refine ⟨.inl ⟨_, _, rfl, rfl, .refl _⟩, fun store hopen => ?_, fun store hopen => ?_⟩
      · rw [Store.Lasting, hempty hopen]
        exact Json.tidy_obj.2 ⟨nodup_nil, forall_mem_nil _⟩
      · rw [Store.InForm, hempty hopen]
        exact fun _ hm => absurd hm not_mem_nil
    | @step now around c console _ hc hrun ih =>
      have hout : Outcome around c now console.dir := outcome_of_run (s := ⟨now, ""⟩) hrun
      obtain ⟨hin | hdeep, hlasting, hform⟩ := ih
      · obtain ⟨hstep, hlasts⟩ := hout.inStep hin hlasting hc.1 fun id _ _ => hform.tellsVerb id
        exact ⟨hstep, hlasts, hout.inForm hform hlasting hc.1 hc.2⟩
      · rw [hout.eq_of_tooDeep hdeep]
        exact ⟨.inr hdeep, hlasting, hform⟩
  exact hall.1

/-! ### Directories with one mock and one rule -/

/-- A store and a table on files that hold a mock and a rule. -/
def sole (m : Mock) (r : Rule) : Workspace :=
  let entries : Members := [(Records.key, .arr [m.toJson]), (globalKey, .bool true)]
  ⟨⟨entries, .file (some (Store.fileText entries)), .empty⟩, ⟨[r], .file (some (Table.fileText [r]))⟩⟩

/-- A mock and a rule that are read back from such files. -/
structure Filable (m : Mock) (r : Rule) : Prop where
  normal : m.Normal Json.Lasting
  shallow : m.body.depth + 3 ≤ Json.depthLimit
  words : r.InWords

variable {m new : Mock} {r own : Rule} {url : String}

theorem Filable.store (h : Filable m r) : (sole m r).store.Filed := by
  refine ⟨⟨_, rfl, .inr rfl⟩, show [Records.key, globalKey].Nodup by decide, ?_⟩
  exact forall_mem_cons.2 ⟨.inr ⟨[m], rfl, forall_mem_singleton.2 h.normal⟩,
    forall_mem_singleton.2 (.inl ⟨true, rfl⟩)⟩

theorem Filable.ofEntries (h : Filable m r) : Records.ofEntries (sole m r).store.entries = [.mock m] :=
  show Records.ofEntries _ = [m].map .mock from
    Records.ofEntries_of_get? rfl (forall_mem_singleton.2 h.normal)

theorem Filable.openStore_eq (h : Filable m r) : openStore (files (sole m r)).store = .ok (sole m r).store := by
  have hdepth : (Json.obj (sole m r).store.entries).depth ≤ 124 + 3 := by
    rw [h.store.depth_le_iff, h.ofEntries]
    exact forall_mem_singleton.2 (Nat.le_of_add_le_add_right h.shallow)
  have hfile : (sole m r).store.backing.fileState = .text (Store.fileText (sole m r).store.entries) := rfl
  rw [files_eq, hfile, openStore_text, (Store.openFile_fileText h.store.tidy).1 hdepth]
  rfl

/-- The files can be opened, and nothing is seeded. -/
theorem Filable.opened (h : Filable m r) : Opened (files (sole m r)) (sole m r) := by
  refine ⟨⟨(sole m r).store, [], h.openStore_eq, rfl, (Store.set_nil _).symm⟩, ?_⟩
  have hfile : (sole m r).engine.backing.fileState = .text (Table.fileText [r]) := rfl
  rw [files_eq, hfile, openEngine_text, Engine.openFile, Table.parse_fileText (forall_mem_singleton.2 h.words)]
  rfl

theorem Filable.lasting (h : Filable m r) : (files (sole m r)).Lasting := by
  intro store hopen
  cases h.openStore_eq.symm.trans hopen
  exact h.store.tidy

theorem Filable.tellsVerb (h : Filable m r) (id : MockId) (htells : m.TellsVerb) :
    (files (sole m r)).TellsVerb id := by
  intro store old hopen hfind
  cases h.openStore_eq.symm.trans hopen
  rw [h.ofEntries, Records.find?_mock_cons] at hfind
  split at hfind
  · cases hfind
    exact htells
  · cases hfind

theorem Filable.planned (h : Filable m r) (he : m.enabled = true) (hown : m.rule m.id.ruleId = .ok own) :
    Engine.planned (sole m r).store.entries = [own] := by
  have hon : Members.get? globalKey (sole m r).store.entries = some (.bool true) := rfl
  rw [Engine.planned, hon, h.ofEntries]
  exact Plan.rules_ofMocks_singleton he hown

/-- The directory is in step if the rule is that of the mock. -/
theorem Filable.inStep_iff (h : Filable m r) (he : m.enabled = true) (hown : m.rule m.id.ruleId = .ok own)
    (hmanaged : isManaged r.id = true) : (files (sole m r)).InStep ↔ r = own := by
  have hrules : (sole m r).engine.table.managed = [r] := filter_cons_of_pos hmanaged
  rw [h.opened.inStep_iff, hrules, h.planned he hown, singleton_perm_singleton]

/-- The endpoint of the mock is typed anew, and its template stays. -/
theorem Filable.runOn_setUrl (around : Surroundings) (h : Filable m r)
    (hnew : Mocks.withUrl url m = .ok new) (htemplate : new.urlTemplate = m.urlTemplate) :
    runOn around (files (sole m r)) (.setUrl m.id url) = (.ok (), ⟨files (sole new r),
      "Mock " ++ Listing.number m.id.value ++ ": template unchanged\n"⟩) := by
  have hfind : Records.find? [.mock m] m.id = some m := by
    rw [Records.find?_mock_cons, if_pos rfl]
  have hreplace : Records.replace m.id new [.mock m] = [.mock new] := if_pos (decide_eq_true rfl)
  have hop : Mocks.updateUrl m.id url (sole m r).store.entries = .ok (false, Records.toEntries [.mock new]) := by
    rw [Call.updateUrl_eq_ok, h.ofEntries]
    exact ⟨m, new, hfind, hnew, decide_eq_false (not_not_intro htemplate), congrArg _ hreplace⟩
  let store := (sole m r).store.set (Records.toEntries [.mock new])
  have hfiles : files ⟨store, (sole m r).engine⟩ = files (sole new r) := rfl
  change Runs (run around (.setUrl m.id url)) _ () _
  rw [← hfiles]
  refine runs_bind.2 ⟨sole m r, _, runs_openDir.2 ⟨h.opened, rfl⟩, runs_bind.2 ⟨(false, ⟨store, _⟩), _,
    runs_perform.2 ⟨store, Store.perform_eq_ok.2 ⟨_, hop, rfl⟩, rfl, rfl⟩, runs_print.2 ?_⟩⟩
  simp [String.join, String.append_assoc]

/-! ### Commands -/

/-- A command that succeeds leaves the rule table in step with the store, unless the store has become too
deep to be read. What it brings in has to be read back, and where it types an endpoint anew, the template
that is there has to tell the verb of its mock. -/
theorem runOn_inStep {console : Console} (hdir : dir.InStep) (hlasting : dir.Lasting) (hc : c.Lasting around)
    (htells : ∀ id url, c = .setUrl id url → dir.TellsVerb id)
    (h : runOn around dir c = (.ok (), console)) : console.dir.InStep ∨ console.dir.TooDeep :=
  ((outcome_of_run (s := ⟨dir, ""⟩) h).inStep hdir hlasting hc htells).1

/-- What is around a command that reads nothing and brings no mocks. -/
def nothingAround : Surroundings := ⟨"data", fun _ => none, .unreachable, fun _ => ⟨1⟩⟩

theorem lasting_setUrl (around : Surroundings) (id : MockId) (url : String) :
    (setUrl id url).Lasting around := by
  rintro _ (_ | _)
  exact ⟨trivial, trivial⟩

/-- A mock that answers with a zero. -/
def zeroMock (typed template : String) (verb : Verb) : Mock := ⟨⟨1⟩, typed, template, verb, .int 0, true⟩

def zeroRule (filter : String) : Rule :=
  ⟨1, Rule.defaultPriority, .redirect "data:application/json,0", ⟨filter, [.xmlHttpRequest], [.post]⟩⟩

theorem filable_zero (typed template filter : String) {verb : Verb} (hverb : verb.IsNormal) :
    Filable (zeroMock typed template verb) (zeroRule filter) :=
  ⟨⟨show MockId.InRange ⟨1⟩ by decide, hverb,
      .scalar trivial (Json.lasting_int (by decide) (by decide))⟩,
    show 0 + 3 ≤ Json.depthLimit by decide,
    ⟨show 1 < Nat.pow 2 32 by decide, show Rule.defaultPriority < Nat.pow 2 32 by decide⟩⟩

/-- The same path is typed in another way. -/
theorem runOn_inStep_retyped :
    let dir := files (sole (zeroMock "/a" "/a?MT=GET" .get) (zeroRule "*/a?MT=GET^"))
    dir.InStep ∧ ∃ console, runOn nothingAround dir (.setUrl ⟨1⟩ "https://h/a") = (.ok (), console) ∧
      console.printed = "Mock 1: template unchanged\n" ∧ console.dir.InStep := by
  intro dir
  have hget : Verb.get.IsNormal := by decide
  have hold := filable_zero "/a" "/a?MT=GET" "*/a?MT=GET^" hget
  have hnew := filable_zero "https://h/a" "/a?MT=GET" "*/a?MT=GET^" hget
  have hrule : (zeroMock "/a" "/a?MT=GET" .get).rule 1 = .ok (zeroRule "*/a?MT=GET^") := by rfl
  have hurl : Mocks.withUrl "https://h/a" (zeroMock "/a" "/a?MT=GET" .get) =
      .ok (zeroMock "https://h/a" "/a?MT=GET" .get) := by rfl
  have hdir : dir.InStep := (hold.inStep_iff rfl hrule rfl).2 rfl
  have hform : (zeroMock "/a" "/a?MT=GET" .get).InForm :=
    Mock.inForm_of_template (show Endpoint.IsPath "/a" from ⟨by decide, by decide⟩) (by decide) hget
  have htells : dir.TellsVerb ⟨1⟩ := hold.tellsVerb _ hform.tellsVerb
  have hrun := hold.runOn_setUrl nothingAround hurl rfl
  refine ⟨hdir, _, hrun, by decide, ?_⟩
  exact (runOn_inStep hdir hold.lasting (lasting_setUrl _ _ _) (fun id url h => by cases h; exact htells)
    hrun).resolve_right hnew.opened.not_tooDeep

/-- The verb of a mock is not the one in its template, and the template is typed. The mock gets the verb of
the template, the template is the same as before, and the rule stays that of the old verb. -/
theorem not_runOn_inStep_reverbed :
    let dir := files (sole (zeroMock "" "/a?MT=PUT" .get) (zeroRule "*/a?MT=GET^"))
    dir.InStep ∧ ∃ console, runOn nothingAround dir (.setUrl ⟨1⟩ "/a?MT=PUT") = (.ok (), console) ∧
      ¬console.dir.InStep ∧ ¬console.dir.TooDeep := by
  intro dir
  have hget : Verb.get.IsNormal := by decide
  have hput : Verb.IsNormal ⟨"PUT"⟩ := by decide
  have hold := filable_zero "" "/a?MT=PUT" "*/a?MT=GET^" hget
  have hnew := filable_zero "/a?MT=PUT" "/a?MT=PUT" "*/a?MT=GET^" hput
  have hrule : (zeroMock "" "/a?MT=PUT" .get).rule 1 = .ok (zeroRule "*/a?MT=GET^") := by rfl
  have hnewRule : (zeroMock "/a?MT=PUT" "/a?MT=PUT" ⟨"PUT"⟩).rule 1 = .ok (zeroRule "*/a?MT=PUT^") := by rfl
  have hurl : Mocks.withUrl "/a?MT=PUT" (zeroMock "" "/a?MT=PUT" .get) =
      .ok (zeroMock "/a?MT=PUT" "/a?MT=PUT" ⟨"PUT"⟩) := by rfl
  refine ⟨(hold.inStep_iff rfl hrule rfl).2 rfl, _, hold.runOn_setUrl _ hurl rfl, fun hdir => ?_,
    hnew.opened.not_tooDeep⟩
  have heq := (hnew.inStep_iff rfl hnewRule rfl).1 hdir
  exact absurd heq (by decide)

end Command
end MockRedirect
