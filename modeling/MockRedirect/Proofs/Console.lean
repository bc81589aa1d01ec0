import MockRedirect.Command.Run
import MockRedirect.Proofs.Call
/-! What a command that succeeds does to its data directory: nothing, or it opens the directory, makes one
call on the store, and brings the rule table in step with what the store then holds. -/
namespace MockRedirect

theorem Store.perform_eq_ok {op : Operation α} {s t : Store} {a : α} :
    s.perform op = (.ok a, t) ↔ ∃ new, op s.entries = .ok (a, new) ∧ t = s.set new := by
  rw [perform]
  cases op s.entries with
  | error e => simp
  | ok r =>
    constructor
    · intro h
      cases h
      exact ⟨_, rfl, rfl⟩
    · rintro ⟨new, h, rfl⟩
      cases h
      rfl

namespace Command

/-! ### Steps that succeed -/

/-- A part of a command succeeds with an answer, and leads from one console to another. -/
def Runs (x : CommandM α) (s : Console) (a : α) (t : Console) : Prop := x.run.run s = (.ok a, t)

variable {s t : Console} {around : Surroundings} {w : Workspace}

theorem runs_pure {a b : α} : Runs (pure a) s b t ↔ a = b ∧ s = t := by
  constructor
  · intro h
    cases h
    exact ⟨rfl, rfl⟩
  · rintro ⟨rfl, rfl⟩
    rfl

theorem not_runs_throw {e : CommandError} {a : α} : ¬Runs (throw e) s a t := by
  intro h
  cases h

theorem runs_bind {x : CommandM α} {f : α → CommandM β} {b : β} :
    Runs (x >>= f) s b t ↔ ∃ a u, Runs x s a u ∧ Runs (f a) u b t := by
  unfold Runs
  rw [ExceptT.run_bind, StateT.run_bind]
  rcases x.run.run s with ⟨r, u⟩
  constructor
  · intro h
    cases r with
    | ok a => exact ⟨a, u, rfl, h⟩
    | error e => cases h
  · rintro ⟨a, u', h, hf⟩
    cases h
    exact hf

theorem runs_orFail {r : Except ε α} {wrap : ε → CommandError} {a : α} :
    Runs (orFail r wrap) s a t ↔ r = .ok a ∧ s = t := by
  cases r with
  | ok b => simp [orFail, runs_pure]
  | error e => simp [orFail, not_runs_throw]

theorem runs_readSource {source : Source} {text : String} :
    Runs (readSource around source) s text t ↔ around.input source = some text ∧ s = t := by
  rw [readSource]
  cases around.input source with
  | some text => simp [runs_pure]
  | none => simp [not_runs_throw]

theorem runs_print {lines : List String} :
    Runs (print lines) s () t ↔ t = ⟨s.dir, s.printed ++ String.join (lines.map (· ++ "\n"))⟩ := by
  constructor
  · intro h
    cases h
    rfl
  · rintro rfl
    rfl

theorem dir_of_print {lines : List String} (h : Runs (print lines) s () t) : t.dir = s.dir := by
  rw [runs_print.1 h]

theorem dir_of_printRoute {r : Option Rule} (h : Runs (printRoute r) s () t) : t.dir = s.dir := by
  cases r with
  | none => exact dir_of_print h
  | some r =>
    obtain ⟨_, u, hp, h⟩ := runs_bind.1 h
    rw [← dir_of_print hp]
    split at h
    · obtain ⟨body, v, hbody, h⟩ := runs_bind.1 h
      obtain ⟨-, rfl⟩ := runs_orFail.1 hbody
      exact dir_of_print h
    · obtain ⟨-, rfl⟩ := runs_pure.1 h
      rfl

theorem runs_commit : Runs (commit w) s () t ↔ t = ⟨files w, s.printed⟩ := by
  constructor
  · intro h
    cases h
    rfl
  · rintro rfl
    rfl

/-! ### The data directory -/

/-- A data directory that has been opened: both files can be read, and a new store has got its entries. -/
structure Opened (dir : DataDir) (w : Workspace) : Prop where
  store : ∃ store new, openStore dir.store = .ok store ∧ Mocks.seed store.entries = .ok ((), new) ∧
    w.store = store.set new
  engine : openEngine dir.rules = .ok w.engine

theorem runs_perform {op : Store.Operation α} {a : α} {w' : Workspace} : Runs (perform op w) s (a, w') t ↔
    ∃ store, w.store.perform op = (.ok a, store) ∧ w' = ⟨store, w.engine⟩ ∧ t = ⟨files w', s.printed⟩ := by
  rw [perform]
  rcases hop : w.store.perform op with ⟨r, store⟩
  constructor
  · intro h
    obtain ⟨a', u, hr, h⟩ := runs_bind.1 h
    obtain ⟨rfl, rfl⟩ := runs_orFail.1 hr
    obtain ⟨_, u, hcommit, h⟩ := runs_bind.1 h
    obtain ⟨heq, rfl⟩ := runs_pure.1 h
    cases heq
    exact ⟨store, rfl, rfl, runs_commit.1 hcommit⟩
  · rintro ⟨store', hstore, rfl, rfl⟩
    cases hstore
    exact runs_bind.2 ⟨a, s, runs_orFail.2 ⟨rfl, rfl⟩,
      runs_bind.2 ⟨(), _, runs_commit.2 rfl, runs_pure.2 ⟨rfl, rfl⟩⟩⟩

theorem runs_openDir : Runs (openDir around) s w t ↔ Opened s.dir w ∧ t = ⟨files w, s.printed⟩ := by
  rw [openDir]
  constructor
  · intro h
    obtain ⟨s', u, hget, h⟩ := runs_bind.1 h
    cases hget
    obtain ⟨store, u, hopen, h⟩ := runs_bind.1 h
    obtain ⟨hstore, rfl⟩ := runs_orFail.1 hopen
    obtain ⟨engine, u, hopen, h⟩ := runs_bind.1 h
    obtain ⟨hengine, rfl⟩ := runs_orFail.1 hopen
    obtain ⟨⟨⟨⟩, w'⟩, u, hseed, h⟩ := runs_bind.1 h
    obtain ⟨rfl, rfl⟩ := runs_pure.1 h
    obtain ⟨seeded, hperform, rfl, ht⟩ := runs_perform.1 hseed
    cases hperform
    exact ⟨⟨⟨store, _, hstore, rfl, rfl⟩, hengine⟩, ht⟩
  · rintro ⟨⟨⟨store, new, hstore, hseed, hw⟩, hengine⟩, rfl⟩
    refine runs_bind.2 ⟨s, s, rfl, runs_bind.2 ⟨store, s, runs_orFail.2 ⟨hstore, rfl⟩,
      runs_bind.2 ⟨w.engine, s, runs_orFail.2 ⟨hengine, rfl⟩, runs_bind.2 ⟨((), w), _, ?_,
        runs_pure.2 ⟨rfl, rfl⟩⟩⟩⟩⟩
    exact runs_perform.2 ⟨w.store, Store.perform_eq_ok.2 ⟨new, hseed, hw⟩, rfl, rfl⟩

theorem runs_sync (h : Runs (sync w) s () t) : ∃ report engine,
    w.engine.reconcile w.store.entries = .ok (report, engine) ∧ t.dir = files ⟨w.store, engine⟩ := by
  rw [sync] at h
  obtain ⟨⟨report, engine⟩, u, hrun, h⟩ := runs_bind.1 h
  obtain ⟨hr, rfl⟩ := runs_orFail.1 hrun
  obtain ⟨⟨⟩, u, hcommit, h⟩ := runs_bind.1 h
  obtain rfl := runs_commit.1 hcommit
  exact ⟨report, engine, hr, dir_of_print h⟩

/-! ### Commands -/

/-- The call that a command makes on the store that it has opened, if it makes one that writes. -/
inductive Asks (around : Surroundings) : Command → Call → Prop
  | add {m : MockSource} {template : String} {d : Draft} (hread : around.input m.source = some template)
    (hd : Draft.compose m.url m.verb template = .ok d) : Asks around (.add m) (.saveDraft d (around.draw 0))
  | generate {m : MockSource} {server model template : String} {tree : Json} {d : Draft}
    (hread : around.input m.source = some template)
    (htree : generated around.transport server model template = .ok tree)
    (hd : Draft.ofTree m.url m.verb tree = .ok d) :
    Asks around (.generate m server model) (.saveDraft d (around.draw 0))
  | toggle (id : MockId) : Asks around (.toggle id) (.toggle id)
  | delete (id : MockId) : Asks around (.delete id) (.delete id)
  | clear : Asks around .clear .deleteAll
  | global (on : Bool) : Asks around (.global (some on)) (.setGlobal on)
  | setVerb (id : MockId) (verb : Verb) : Asks around (.setVerb id verb) (.updateVerb id verb)
  | setUrl (id : MockId) (url : String) : Asks around (.setUrl id url) (.updateUrl id url)
  | setField (id : MockId) (path value : String) :
    Asks around (.setField id path value) (.updateField id path value)
  | addItem (id : MockId) (path : String) : Asks around (.addItem id path) (.pushItem id path)
  | removeItem (id : MockId) (path : String) (i : Nat) :
    Asks around (.removeItem id path i) (.removeItem id path i)
  | importArchive {path marker text : String} {entries : List Recording}
    (hread : around.input (.file path) = some text) (hentries : Archive.parse text = .ok entries) :
    Asks around (.importArchive path marker) (.addAll (Archive.drafts entries marker) around.draw)

/-- What a command that succeeds makes of its data directory. -/
inductive Outcome (around : Surroundings) (c : Command) (dir : DataDir) : DataDir → Prop
  | untouched : Outcome around c dir dir
  | opened {w : Workspace} (h : Opened dir w) : Outcome around c dir (files w)
  | synced {w : Workspace} {call : Call} {a : call.Answer} {store : Store} {report : Report} {engine : Engine}
    (h : Opened dir w) (hask : c.Asks around call)
    (hcall : w.store.perform call.operation = (.ok a, store))
    (hsync : w.engine.reconcile store.entries = .ok (report, engine)) :
    Outcome around c dir (files ⟨store, engine⟩)
  /-- The endpoint of a mock is typed anew, and its template stays the same. -/
  | retyped {w : Workspace} {id : MockId} {url : String} {store : Store} (h : Opened dir w)
    (hc : c = .setUrl id url) (hcall : w.store.perform (Mocks.updateUrl id url) = (.ok false, store)) :
    Outcome around c dir (files ⟨store, w.engine⟩)

variable {c : Command}

theorem outcome_of_dir_eq {dir : DataDir} (h : dir = s.dir) : Outcome around c s.dir dir :=
  h ▸ .untouched

/-- Opening the directory, making a call, telling about it, and bringing the rule table in step. -/
theorem outcome_of_call {call : Call} {tell : call.Answer × Workspace → CommandM Unit}
    (hask : c.Asks around call) (h : Runs (openDir around >>= fun w => perform call.operation w >>= tell) s () t)
    (htell : ∀ r s, Runs (tell r) s () t → ∃ u, Runs (sync r.2) u () t) : Outcome around c s.dir t.dir := by
  obtain ⟨w, u, hopen, h⟩ := runs_bind.1 h
  obtain ⟨hopened, -⟩ := runs_openDir.1 hopen
  obtain ⟨⟨a, w'⟩, v, hcall, h⟩ := runs_bind.1 h
  obtain ⟨store, hperform, rfl, -⟩ := runs_perform.1 hcall
  obtain ⟨x, hsync⟩ := htell _ _ h
  obtain ⟨report, engine, hreconcile, hdir⟩ := runs_sync hsync
  rw [hdir]
  exact .synced hopened hask hperform hreconcile

/-- Opening the directory, reading from the store, and telling about it. -/
theorem outcome_of_read {op : Store.Operation α} {tell : α × Workspace → CommandM Unit}
    (hop : ∀ entries a new, op entries = .ok (a, new) → new = [])
    (h : Runs (openDir around >>= fun w => perform op w >>= tell) s () t)
    (htell : ∀ r s, Runs (tell r) s () t → t.dir = s.dir) : Outcome around c s.dir t.dir := by
  obtain ⟨w, u, hopen, h⟩ := runs_bind.1 h
  obtain ⟨hopened, -⟩ := runs_openDir.1 hopen
  obtain ⟨⟨a, w'⟩, v, hcall, h⟩ := runs_bind.1 h
  obtain ⟨store, hperform, rfl, hdir⟩ := runs_perform.1 hcall
  obtain ⟨new, hnew, rfl⟩ := Store.perform_eq_ok.1 hperform
  obtain rfl := hop _ _ _ hnew
  rw [htell _ _ h, hdir, Store.set_nil]
  exact .opened hopened

theorem exists_sync_of_print {lines : List String} (h : Runs (print lines >>= fun _ => sync w) s () t) :
    ∃ u, Runs (sync w) u () t := by
  obtain ⟨_, u, -, h⟩ := runs_bind.1 h
  exact ⟨u, h⟩

theorem outcome_of_saveDraft {d : Draft} {dryRun : Bool}
    (hask : c.Asks around (.saveDraft d (around.draw 0)))
    (h : Runs (saveDraft around d dryRun) s () t) : Outcome around c s.dir t.dir := by
  cases dryRun with
  | true =>
    obtain ⟨w, u, hopen, h⟩ := runs_bind.1 h
    obtain ⟨hopened, hdir⟩ := runs_openDir.1 hopen
    have hprint : t.dir = u.dir := dir_of_print h
    rw [hprint, hdir]
    exact .opened hopened
  | false => exact outcome_of_call hask h fun ⟨m, w⟩ s => exists_sync_of_print

/-- Nothing else can come of a command that succeeds. -/
theorem outcome_of_run (h : Runs (run around c) s () t) : Outcome around c s.dir t.dir := by
  have hdirs {f : Workspace → CommandM Unit} (hf : ∀ w s, Runs (f w) s () t → t.dir = s.dir)
      (h : Runs (openDir around >>= f) s () t) : Outcome around c s.dir t.dir := by
    obtain ⟨w, u, hopen, h⟩ := runs_bind.1 h
    obtain ⟨hopened, hdir⟩ := runs_openDir.1 hopen
    rw [hf w u h, hdir]
    exact .opened hopened
  cases c with
  | compile url verb =>
    obtain ⟨e, u, he, h⟩ := runs_bind.1 h
    obtain ⟨-, rfl⟩ := runs_orFail.1 he
    exact outcome_of_dir_eq (dir_of_print h)
  | schema source =>
    obtain ⟨text, u, hr, h⟩ := runs_bind.1 h
    obtain ⟨-, rfl⟩ := runs_readSource.1 hr
    obtain ⟨_, v, hp, h⟩ := runs_bind.1 h
    exact outcome_of_dir_eq ((dir_of_print h).trans (dir_of_print hp))
  | add m =>
    obtain ⟨template, u, hr, h⟩ := runs_bind.1 h
    obtain ⟨hsource, rfl⟩ := runs_readSource.1 hr
    obtain ⟨d, u, hd, h⟩ := runs_bind.1 h
    obtain ⟨hcompose, rfl⟩ := runs_orFail.1 hd
    exact outcome_of_saveDraft (.add hsource hcompose) h
  | generate m server model =>
    obtain ⟨template, u, hr, h⟩ := runs_bind.1 h
    obtain ⟨hsource, rfl⟩ := runs_readSource.1 hr
    obtain ⟨tree, u, ht, h⟩ := runs_bind.1 h
    obtain ⟨htree, rfl⟩ := runs_orFail.1 ht
    obtain ⟨d, u, hd, h⟩ := runs_bind.1 h
    obtain ⟨hdraft, rfl⟩ := runs_orFail.1 hd
    exact outcome_of_saveDraft (.generate hsource htree hdraft) h
  | list => exact outcome_of_read (fun _ _ _ hop => by cases hop; rfl) h fun ⟨ms, w⟩ s => dir_of_print
  | card id =>
    exact outcome_of_read (fun _ _ _ hop => (Call.get_eq_ok.1 hop).2) h fun ⟨m, w⟩ s => dir_of_print
  | toggle id => exact outcome_of_call (.toggle id) h fun ⟨a, w⟩ s => exists_sync_of_print
  | delete id => exact outcome_of_call (.delete id) h fun ⟨a, w⟩ s => exists_sync_of_print
  | clear => exact outcome_of_call .clear h fun ⟨a, w⟩ s => exists_sync_of_print
  | global on =>
    cases on with
    | none => exact hdirs (fun w s h => dir_of_print h) h
    | some on => exact outcome_of_call (.global on) h fun ⟨a, w⟩ s h => ⟨s, h⟩
  | setVerb id verb => exact outcome_of_call (.setVerb id verb) h fun ⟨a, w⟩ s => exists_sync_of_print
  | setUrl id url =>
    obtain ⟨w, u, hopen, h⟩ := runs_bind.1 h
    obtain ⟨hopened, -⟩ := runs_openDir.1 hopen
    obtain ⟨⟨changed, w'⟩, v, hcall, h⟩ := runs_bind.1 h
    obtain ⟨store, hperform, rfl, hstore⟩ := runs_perform.1 hcall
    cases changed with
    | true =>
      obtain ⟨report, engine, hreconcile, hdir⟩ := runs_sync h
      rw [hdir]
      exact .synced hopened (.setUrl id url) hperform hreconcile
    | false =>
      have hprint : t.dir = v.dir := dir_of_print h
      rw [hprint, hstore]
      exact .retyped hopened rfl hperform
  | setField id path value =>
    exact outcome_of_call (.setField id path value) h fun ⟨a, w⟩ s => exists_sync_of_print
  | addItem id path => exact outcome_of_call (.addItem id path) h fun ⟨a, w⟩ s => exists_sync_of_print
  | removeItem id path i =>
    exact outcome_of_call (.removeItem id path i) h fun ⟨a, w⟩ s => exists_sync_of_print
  | importArchive path marker =>
    obtain ⟨text, u, hr, h⟩ := runs_bind.1 h
    obtain ⟨hread, rfl⟩ := runs_readSource.1 hr
    obtain ⟨entries, u, he, h⟩ := runs_bind.1 h
    obtain ⟨hentries, rfl⟩ := runs_orFail.1 he
    dsimp only at h
    split at h
    · exact outcome_of_dir_eq (dir_of_print h)
    · exact outcome_of_call (.importArchive hread hentries) h fun ⟨ms, w⟩ s => exists_sync_of_print
  | rules => exact hdirs (fun w s h => dir_of_print h) h
  | route url method resourceType =>
    obtain ⟨q, u, hq, h⟩ := runs_bind.1 h
    obtain ⟨-, rfl⟩ := runs_orFail.1 hq
    refine hdirs (fun w s h => ?_) h
    obtain ⟨r, u, hr, h⟩ := runs_bind.1 h
    obtain ⟨-, rfl⟩ := runs_orFail.1 hr
    exact dir_of_printRoute h

end Command
end MockRedirect
