import MockRedirect.Command.Error
import MockRedirect.Command.Listing
import MockRedirect.Model.Server
import MockRedirect.Model.Task
import MockRedirect.Schema
/-! Running a command on the files of a data directory. Main function: `Command.run`. -/
namespace MockRedirect

/-- What is at the place of a file. -/
inductive FileState where
  | absent
  | text (content : String)
  | unreadable
  deriving DecidableEq, Repr

/-- The files that hold the store and the rule table. -/
structure DataDir where
  store : FileState
  rules : FileState
  deriving DecidableEq, Repr

/-- The data directory, and what has been printed so far. -/
structure Console where
  dir : DataDir
  printed : String
  deriving DecidableEq, Repr

/-- What a command finds around it. -/
structure Surroundings where
  /-- The name of the data directory. -/
  dataDir : String
  input : Source → Option String
  transport : Transport Id
  /-- The ids that are drawn for new mocks. -/
  draw : Nat → MockId

/-- What a command has printed and written stays if it fails later. -/
abbrev CommandM := ExceptT CommandError (StateM Console)

/-- An open data directory. -/
structure Workspace where
  store : Store
  engine : Engine
  deriving Repr

namespace Command

def print (lines : List String) : CommandM Unit :=
  modify fun c => { c with printed := c.printed ++ String.join (lines.map (· ++ "\n")) }

def orFail (r : Except ε α) (wrap : ε → CommandError) : CommandM α :=
  match r with
  | .ok a => pure a
  | .error e => throw (wrap e)

def readSource (around : Surroundings) (source : Source) : CommandM String :=
  match around.input source with
  | some text => pure text
  | none => throw (.reading source)

/-! ### The data directory -/

/-- The text of a file that may be missing. -/
def FileState.text? (unreadable : ε) : FileState → Except ε (Option String)
  | .absent => .ok none
  | .text content => .ok (some content)
  | .unreadable => .error unreadable

/-- The files of an open data directory as they stand on disk. -/
def files (w : Workspace) : DataDir :=
  let file : Backing → FileState
    | .file (some content) => .text content
    | _ => .absent
  ⟨file w.store.backing, file w.engine.backing⟩

def commit (w : Workspace) : CommandM Unit := modify fun c => { c with dir := files w }

def openStore (file : FileState) : Except StoreError Store := do
  let text ← FileState.text? .unavailable file
  (Store.openFile text).mapError .json

def openEngine (file : FileState) : Except RuleError Engine := do
  let text ← FileState.text? .unavailable file
  Engine.openFile text

/-- Runs an operation on the store and writes its file. -/
def perform (op : Store.Operation α) (w : Workspace) : CommandM (α × Workspace) := do
  let (r, store) := w.store.perform op
  let a ← orFail r .store
  let w := { w with store }
  commit w
  pure (a, w)

/-- Opens the data directory, in which a new store gets its entries. -/
def openDir (around : Surroundings) : CommandM Workspace := do
  let dir := (← get).dir
  let store ← orFail (openStore dir.store) (.openingStore around.dataDir)
  let engine ← orFail (openEngine dir.rules) (.openingRules around.dataDir)
  let (_, w) ← perform Mocks.seed ⟨store, engine⟩
  pure w

/-- Brings the rule table in step with the store. -/
def sync (w : Workspace) : CommandM Unit := do
  let (report, engine) ← orFail (w.engine.reconcile w.store.entries) .rule
  commit { w with engine }
  print (Listing.report report)

/-- Saves a draft, or only shows it. -/
def saveDraft (around : Surroundings) (d : Draft) (dryRun : Bool) : CommandM Unit := do
  let w ← openDir around
  if dryRun then print [d.verb.text ++ " " ++ d.urlTemplate, d.body.prettyText]
  else
    let (m, w) ← perform (Mocks.saveDraft d (around.draw 0)) w
    print ["Saved mock " ++ Listing.number m.id.value ++ " (" ++ m.verb.text ++ " " ++
      m.urlTemplate ++ ")"]
    sync w

/-- Edits one mock and shows it. -/
def editMock (around : Surroundings) (op : Store.Operation Mock) : CommandM Unit := do
  let (m, w) ← perform op (← openDir around)
  print (Listing.mockCard m)
  sync w

/-! ### Generation -/

/-- How often a model that is downloading is asked again. -/
def patience : Nat := 1000

/-- Probes a model until it is no longer downloading. -/
def awaitModel (model : LanguageModel (StateT Download Id) String) :
    Nat → Readiness × Generator String → StateT Download Id (Readiness × Generator String)
  | n + 1, (.downloading, g) => do
    modify Download.follow
    awaitModel model n (← g.probe model)
  | _, r => pure r

/-- Has a model fill in a template. -/
def fillTemplate (model : LanguageModel (StateT Download Id) String) (template : String) :
    StateT Download Id (Except CommandError Json) := do
  match ← awaitModel model patience (← Generator.new.probe model) with
  | (.ready, g) =>
    let (r, g) ← g.generate model template.toList
    let _ ← g.destroy model
    pure ((r.getD (.error .cancelled)).mapError .generation)
  | (.unavailable reason, _) => pure (.error (.unavailable reason))
  | _ => pure (.error .notReady)

def generated (transport : Transport Id) (server model template : String) :
    Except CommandError Json :=
  ((fillTemplate ((Server.of server model).languageModel transport) template).run .none).run.1

/-! ### Requests -/

/-- What a rule answers with, if it redirects: the decoded body. -/
def answerOf (url : String) : Except Text.Utf8Fault String :=
  let body := (Text.after? Mock.dataUrlStart.toList url.toList).getD url.toList
  (Text.decode (Text.percentDecode (Text.utf8 body))).map String.ofList

def requestOf (url method resourceType : String) : Except CommandError Request := do
  let m ← match RequestMethod.ofText? method with
    | some m => .ok m
    | none => .error (.unknownMethod method)
  let name := String.ofList (Text.lowercase (Text.trim resourceType.toList))
  match ResourceType.ofName? name with
  | some t => .ok ⟨url, m, t⟩
  | none => .error (.unknownType resourceType)

def printRoute : Option Rule → CommandM Unit
  | none => print ["No rule matches; the request goes to the network"]
  | some r => do
    print ["Rule " ++ Listing.number r.id ++ " (" ++ r.condition.urlFilter ++ ")"]
    match r.action with
    | .redirect url => do
      let body ← orFail (answerOf url) .undecodable
      print [body]
    | .block => pure ()

/-! ### Commands -/

def run (around : Surroundings) : Command → CommandM Unit
  | compile url verb => do
    let e ← orFail (Endpoint.compile url verb) .input
    print (Listing.endpoint e)
  | schema source => do
    let text := (← readSource around source).toList
    print [(Schema.derive (Template.sampleText text)).toJson.prettyText, ""]
    print (Listing.fieldAnnotations (Template.fieldAnnotations text))
  | add m => do
    let template ← readSource around m.source
    let d ← orFail (Draft.compose m.url m.verb template) .input
    saveDraft around d m.dryRun
  | generate m server model => do
    let template ← readSource around m.source
    let tree ← orFail (generated around.transport server model template) id
    let d ← orFail (Draft.ofTree m.url m.verb tree) .input
    saveDraft around d m.dryRun
  | list => do
    let w ← openDir around
    let (ms, w) ← perform Mocks.list w
    print (Listing.mockTable ms (Mocks.isOn w.store.entries))
  | card id => do
    let (m, _) ← perform (Mocks.get id) (← openDir around)
    print (Listing.mockCard m)
  | toggle id => do
    let (on, w) ← perform (Mocks.toggle id) (← openDir around)
    print ["Mock " ++ Listing.number id.value ++ if on then " enabled" else " disabled"]
    sync w
  | delete id => do
    let (_, w) ← perform (Mocks.delete id) (← openDir around)
    print ["Deleted mock " ++ Listing.number id.value]
    sync w
  | clear => do
    let (_, w) ← perform Mocks.deleteAll (← openDir around)
    print ["Deleted all mocks"]
    sync w
  | global none => do
    let w ← openDir around
    print ["Mocking is " ++ Listing.onOff (Mocks.isOn w.store.entries)]
  | global (some on) => do
    let (_, w) ← perform (Mocks.setGlobal on) (← openDir around)
    sync w
  | setVerb id verb => do
    let (m, w) ← perform (Mocks.updateVerb id verb) (← openDir around)
    print ["Mock " ++ Listing.number id.value ++ " now answers " ++ m.urlTemplate]
    sync w
  | setUrl id url => do
    let (changed, w) ← perform (Mocks.updateUrl id url) (← openDir around)
    if changed then sync w
    else print ["Mock " ++ Listing.number id.value ++ ": template unchanged"]
  | setField id path value => editMock around (Mocks.updateField id path value)
  | addItem id path => editMock around (Mocks.pushItem id path)
  | removeItem id path i => editMock around (Mocks.removeItem id path i)
  | importArchive path marker => do
    let text ← readSource around (.file path)
    let entries ← orFail (Archive.parse text) .input
    let drafts := Archive.drafts entries marker
    if drafts.isEmpty then
      print ["No requests matching " ++ Text.quoted marker ++ " with a JSON response"]
    else
      let (added, w) ← perform (Mocks.addAll drafts around.draw) (← openDir around)
      print ["Imported " ++ Listing.number added.length ++ " mocks"]
      sync w
  | rules => do
    let w ← openDir around
    print (Listing.ruleTable w.engine.table)
  | route url method resourceType => do
    let q ← orFail (requestOf url method resourceType) id
    let w ← openDir around
    let r ← orFail (w.engine.table.evaluate q) fun e => .rule (.filter e)
    printRoute r

/-- The text that a command reads before all else. -/
def source? : Command → Option Source
  | schema source => some source
  | add m => some m.source
  | generate m _ _ => some m.source
  | importArchive path _ => some (.file path)
  | _ => none

/-- Runs a command on the files of its data directory. -/
def runOn (around : Surroundings) (dir : DataDir) (c : Command) :
    Except CommandError Unit × Console :=
  (c.run around).run.run ⟨dir, ""⟩

end Command
end MockRedirect
