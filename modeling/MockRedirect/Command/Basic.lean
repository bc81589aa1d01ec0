import MockRedirect.Archive
import MockRedirect.Command.Line
import MockRedirect.Rule.Basic
/-! The commands. -/
namespace MockRedirect

/-- Where a text is read from. -/
inductive Source where
  | file (path : String)
  | standardInput
  deriving DecidableEq, Repr

/-- An endpoint and where its template is; the verb counts if the endpoint has none. -/
structure MockSource where
  url : String
  source : Source
  verb : Verb
  /-- The draft is only shown. -/
  dryRun : Bool
  deriving DecidableEq, Repr

inductive Command where
  | compile (url : String) (verb : Verb)
  | schema (source : Source)
  | add (mock : MockSource)
  | generate (mock : MockSource) (server model : String)
  | list
  | card (id : MockId)
  | toggle (id : MockId)
  | delete (id : MockId)
  | clear
  | global (on : Option Bool)
  | setVerb (id : MockId) (verb : Verb)
  | setUrl (id : MockId) (url : String)
  | setField (id : MockId) (path value : String)
  | addItem (id : MockId) (path : String)
  | removeItem (id : MockId) (path : String) (i : Nat)
  | importArchive (path marker : String)
  | rules
  | route (url method resourceType : String)
  deriving Repr

/-- A command, and the directory of the data it works on. -/
structure Invocation where
  dataDir : String
  command : Command
  deriving Repr

/-- What holds where a line is silent. -/
structure Defaults where
  dataDir : String
  server : String
  model : String
  deriving DecidableEq, Repr

def Defaults.standard : Defaults := ⟨".apimock", "http://localhost:11434", "llama3.2"⟩

namespace Command

/-! ### Grammars -/

def helpOption : CommandOption := ⟨"help", some 'h', none⟩

/-- Every command takes this option, before or after its name. -/
def dataDirOption : CommandOption := ⟨"data-dir", none, some .path⟩

def verbOption : CommandOption := ⟨"verb", none, some .text⟩

def fileOption : CommandOption := ⟨"file", some 'f', some .path⟩

def mockOptions : List CommandOption := [fileOption, verbOption, ⟨"dry-run", none, none⟩]

def lead : Grammar := ⟨[], [], [dataDirOption, helpOption, ⟨"version", some 'V', none⟩]⟩

def grammar (required : List (String × ArgumentKind)) (options : List CommandOption) : Grammar :=
  ⟨required, [], options ++ [dataDirOption, helpOption]⟩

def idArgument : String × ArgumentKind := ("id", .integer)

def urlArgument : String × ArgumentKind := ("url", .text)

def pathArgument : String × ArgumentKind := ("path", .text)

def grammars : List (String × Grammar) :=
  [("compile", grammar [urlArgument] [verbOption]),
   ("schema", grammar [] [fileOption]),
   ("add", grammar [urlArgument] mockOptions),
   ("generate", grammar [urlArgument]
      (mockOptions ++ [⟨"endpoint", none, some .text⟩, ⟨"model", none, some .text⟩])),
   ("list", grammar [] []),
   ("show", grammar [idArgument] []),
   ("toggle", grammar [idArgument] []),
   ("delete", grammar [idArgument] []),
   ("clear", grammar [] []),
   ("global", { grammar [] [] with optional := [("state", .switch)] }),
   ("set-verb", grammar [idArgument, ("verb", .text)] []),
   ("set-url", grammar [idArgument, urlArgument] []),
   ("set-field", grammar [idArgument, pathArgument, ("value", .text)] []),
   ("add-item", grammar [idArgument, pathArgument] []),
   ("remove-item", grammar [idArgument, pathArgument, ("index", .index)] []),
   ("import-har", grammar [("file", .path)] [⟨"marker", none, some .text⟩]),
   ("rules", grammar [] []),
   ("match", grammar [urlArgument]
      [⟨"method", none, some .text⟩, ⟨"resource-type", none, some .text⟩])]

/-- One line for each command, with what has to follow its name. -/
def usage : List String :=
  "Usage: apimock [--data-dir <DIR>] <COMMAND>" :: "" :: "Commands:" ::
    grammars.map fun (name, g) =>
      "  " ++ name ++ String.join (g.required.map fun (n, _) => " <" ++ n.toUpper ++ ">") ++
        String.join (g.optional.map fun (n, _) => " [" ++ n.toUpper ++ "]") ++
        String.join (g.options.map fun o =>
          if o = dataDirOption ∨ o = helpOption then ""
          else " [--" ++ o.name ++ (if o.kind.isSome then " <" ++ o.name.toUpper ++ ">]" else "]"))

def version : String := "apimock 0.1.0"

/-! ### Reading -/

def id? (word : String) : Option MockId := (readInt64? word.toList).map MockId.mk

def verbOf (l : CommandLine) : Verb := Verb.of ((l.value? "verb").getD Verb.get.text).toList

def sourceOf (l : CommandLine) : Source :=
  match l.value? "file" with
  | some path => .file path
  | none => .standardInput

def mockSource (l : CommandLine) (url : String) : MockSource :=
  ⟨url, sourceOf l, verbOf l, l.has "dry-run"⟩

/-- The command of a name, from a line that its grammar has read. -/
def ofLine? (d : Defaults) (name : String) (l : CommandLine) : Option Command :=
  match name, l.arguments with
  | "compile", [url] => some (.compile url (verbOf l))
  | "schema", [] => some (.schema (sourceOf l))
  | "add", [url] => some (.add (mockSource l url))
  | "generate", [url] =>
    some (.generate (mockSource l url) ((l.value? "endpoint").getD d.server)
      ((l.value? "model").getD d.model))
  | "list", [] => some .list
  | "show", [id] => (id? id).map .card
  | "toggle", [id] => (id? id).map .toggle
  | "delete", [id] => (id? id).map .delete
  | "clear", [] => some .clear
  | "global", [] => some (.global none)
  | "global", [state] => (ArgumentKind.switch? state).map fun on => .global (some on)
  | "set-verb", [id, verb] => (id? id).map fun id => .setVerb id (Verb.of verb.toList)
  | "set-url", [id, url] => (id? id).map fun id => .setUrl id url
  | "set-field", [id, path, value] => (id? id).map fun id => .setField id path value
  | "add-item", [id, path] => (id? id).map fun id => .addItem id path
  | "remove-item", [id, path, i] => do
    let id ← id? id
    let i ← readNat64? i.toList
    some (.removeItem id path i)
  | "import-har", [path] =>
    some (.importArchive path ((l.value? "marker").getD Archive.defaultMarker))
  | "rules", [] => some .rules
  | "match", [url] =>
    some (.route url ((l.value? "method").getD RequestMethod.post.name)
      ((l.value? "resource-type").getD ResourceType.xmlHttpRequest.name))
  | _, _ => none

end Command

/-- Reads a whole line. A data directory after the name of the command counts before one in front
of it. -/
def Invocation.parse (d : Defaults) (words : List String) : Except UsageError Invocation := do
  let (front, rest) ← Command.lead.read true .empty words
  match rest with
  | [] => .error .missingCommand
  | name :: words =>
    match Command.grammars.find? (·.1 == name) with
    | none => if name = "help" then .error .helpAsked else .error (.unknownCommand name)
    | some (_, g) =>
      let l ← g.readAll words
      match Command.ofLine? d name l with
      | some command =>
        let dataDir := ((l.value? "data-dir").or (front.value? "data-dir")).getD d.dataDir
        if dataDir = "" then .error (.badValue "data-dir" "") else .ok ⟨dataDir, command⟩
      | none => .error (.unknownCommand name)

end MockRedirect
