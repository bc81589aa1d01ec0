import MockRedirect.Command.Run
/-! The program: it reads the command line, the files and the standard input that a command needs,
runs the command, and writes what has changed. It has no transport of its own, so that no model
server can be reached. -/
namespace MockRedirect.Main

def inDir (dir leaf : String) : String :=
  if dir.endsWith "/" then dir ++ leaf else dir ++ "/" ++ leaf

def readState (path : String) : IO FileState := do
  match ← (IO.FS.readFile path).toBaseIO with
  | .ok content => pure (.text content)
  | .error (.noFileOrDirectory _ _ _) => pure .absent
  | .error _ => pure .unreadable

/-- Writes a file through a second one, so that a crash leaves the old or the new content. -/
def writeState (path : String) (old new : FileState) : IO Unit := do
  if old = new then return
  match new with
  | .text content =>
    IO.FS.writeFile (path ++ ".new") content
    IO.FS.rename (path ++ ".new") path
  | _ => pure ()

partial def readAll (stream : IO.FS.Stream) (bytes : ByteArray) : IO ByteArray := do
  let more ← stream.read 65536
  if more.isEmpty then return bytes
  readAll stream (bytes ++ more)

def readInput : Source → IO (Option String)
  | .file path => do
    match ← readState path with
    | .text content => pure (some content)
    | _ => pure none
  | .standardInput => do
    pure (String.fromUTF8? (← readAll (← IO.getStdin) .empty))

def defaults : IO Defaults := do
  let get (name standard : String) : IO String := return (← IO.getEnv name).getD standard
  let d := Defaults.standard
  return ⟨← get "APIMOCK_DATA_DIR" d.dataDir, ← get "APIMOCK_MODEL_ENDPOINT" d.server,
    ← get "APIMOCK_MODEL" d.model⟩

def runCommand (i : Invocation) : IO UInt32 := do
  let text ← match i.command.source? with
    | some source => readInput source
    | none => pure none
  let seed ← IO.rand 0 (Nat.pow 2 53)
  let storePath := inDir i.dataDir "store.json"
  let rulesPath := inDir i.dataDir "rules.json"
  let dir : DataDir := ⟨← readState storePath, ← readState rulesPath⟩
  let around : Surroundings :=
    ⟨i.dataDir, fun _ => text, .unreachable, fun n => MockId.ofSeed (seed + 1000 * n : Nat)⟩
  let (result, console) := i.command.runOn around dir
  if dir ≠ console.dir then IO.FS.createDirAll i.dataDir
  writeState storePath dir.store console.dir.store
  writeState rulesPath dir.rules console.dir.rules
  IO.print console.printed
  match result with
  | .ok _ => return 0
  | .error e =>
    IO.eprintln ("Error: " ++ e.message)
    return 1

end MockRedirect.Main

open MockRedirect in
def main (args : List String) : IO UInt32 := do
  match Invocation.parse (← Main.defaults) args with
  | .ok i => Main.runCommand i
  | .error .helpAsked =>
    Command.usage.forM IO.println
    return 0
  | .error .versionAsked =>
    IO.println Command.version
    return 0
  | .error e =>
    IO.eprintln ("error: " ++ e.message)
    Command.usage.forM IO.eprintln
    return 2
