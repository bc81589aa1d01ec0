import MockRedirect.Json.Decoder
import MockRedirect.Model.Error
import MockRedirect.Text.Utf8
/-! Pulls: a model server streams the state of a download as lines of JSON. The stream comes in
chunks of bytes that may be cut anywhere. -/
namespace MockRedirect

/-- One line of a pull. -/
structure PullLine where
  status : String
  error : Option String
  deriving DecidableEq, Repr

namespace PullLine

def decoder : Decoder PullLine where
  shape := .record "a pull line"
    [⟨"status", [], .replaced (.str ""), .text⟩,
     ⟨"error", [], .replacedWhenNamed .null, .optional .text⟩]
  get? := fun
    | .obj [(_, .str status), (_, .null)] => some ⟨status, none⟩
    | .obj [(_, .str status), (_, .str error)] => some ⟨status, some error⟩
    | _ => none

/-- The line that some bytes hold, if they are the text of one. -/
def ofBytes? (line : List Nat) : Option PullLine :=
  match Text.decode line with
  | .ok text => (decoder.parse text).toOption
  | .error _ => none

end PullLine

namespace Pull

def newline : Nat := 10

/-- The complete lines at the front of a stream, and the part of a line after them. -/
def cutLines : List Nat → List (List Nat) × List Nat
  | [] => ([], [])
  | b :: bs =>
    let (lines, rest) := cutLines bs
    if b = newline then ([] :: lines, rest)
    else
      match lines with
      | [] => ([], b :: rest)
      | l :: ls => ((b :: l) :: ls, rest)

/-- Whether a line holds nothing but ASCII blanks. -/
def isBlankLine (line : List Nat) : Bool := line.all [0x09, 0x0A, 0x0C, 0x0D, 0x20].contains

/-- How far the download of a model is, as its server told. -/
inductive State where
  | idle
  | pulling
  | failed (reason : String)
  deriving DecidableEq, Repr

/-- How far a stream has been read. It is silent until a line of it could be read, and after an
error nothing more counts. -/
inductive Progress where
  | silent (pending : List Nat)
  | reporting (pending : List Nat)
  | failed (reason : String)
  deriving DecidableEq, Repr

def firstError? (lines : List PullLine) : Option String := lines.findSome? (·.error)

section Reading

-- how a line is read; lines that cannot be read say nothing
variable (read : List Nat → Option PullLine)

/-- What the complete lines say, and the part of a line after them. Blank lines are not even read. -/
def takeLines (pending : List Nat) : List PullLine × List Nat :=
  let (lines, rest) := cutLines pending
  ((lines.filter (!isBlankLine ·)).filterMap read, rest)

/-- One more chunk of the stream. -/
def Progress.feed (p : Progress) (chunk : List Nat) : Progress :=
  match p with
  | silent pending =>
    let (lines, rest) := takeLines read (pending ++ chunk)
    match firstError? lines with
    | some reason => .failed reason
    | none => if lines.isEmpty then .silent rest else .reporting rest
  | reporting pending =>
    let (lines, rest) := takeLines read (pending ++ chunk)
    match firstError? lines with
    | some reason => .failed reason
    | none => .reporting rest
  | failed reason => .failed reason

/-- What is left of a stream after its first line. -/
structure Stream where
  pending : List Nat
  chunks : List (List Nat)
  /-- Whether the stream comes to its end, and is not cut off. -/
  whole : Bool
  deriving DecidableEq, Repr

/-- Reads a stream up to its first line. A stream that ends before it leaves nothing to follow. -/
def Progress.start (whole : Bool) :
    Progress → List (List Nat) → Except GenerationError (Option Stream)
  | silent _, [] => if whole then .ok none else .error .exchange
  | silent pending, chunk :: chunks => start whole ((silent pending).feed read chunk) chunks
  | reporting pending, chunks => .ok (some ⟨pending, chunks, whole⟩)
  | failed reason, _ => .error (.backend reason)

/-- The state once a stream has been followed to its end. -/
def Stream.outcome (s : Stream) : State :=
  match s.chunks.foldl (Progress.feed read) (.reporting s.pending) with
  | .failed reason => .failed reason
  | _ => if s.whole then .idle else .failed "connection lost"

end Reading
end Pull

/-- The download of one model: its state, and the streams that are still followed. -/
structure Download where
  state : Pull.State
  streams : List Pull.Stream
  deriving DecidableEq, Repr

namespace Download

def none : Download := ⟨.idle, []⟩

section Reading

variable (read : List Nat → Option PullLine)

/-- A pull was requested, and its stream comes in. The answer is there after the first line. -/
def receiveBy (chunks : List (List Nat)) (whole : Bool) (d : Download) :
    Except GenerationError Unit × Download :=
  match Pull.Progress.start read whole (.silent []) chunks with
  | .ok .none => (.ok (), d)
  | .ok (some s) => (.ok (), ⟨.pulling, d.streams ++ [s]⟩)
  | .error (.backend reason) => (.error (.backend reason), { d with state := .failed reason })
  | .error e => (.error e, d)

/-- Follows every stream to its end. -/
def followBy (d : Download) : Download :=
  ⟨d.streams.foldl (fun _ s => s.outcome read) d.state, []⟩

end Reading

/-- The reply to a pull, its lines read as JSON. -/
def receive (chunks : List (List Nat)) (whole : Bool) (d : Download) :
    Except GenerationError Unit × Download := d.receiveBy PullLine.ofBytes? chunks whole

def follow (d : Download) : Download := d.followBy PullLine.ofBytes?

end Download

example :
    let text := "\x7b\"status\":\"a\"\x7d\n\n\x7b\"error\":\"b\"\x7d\nrest"
    (Pull.takeLines PullLine.ofBytes? (Text.utf8 text.toList)).1 = [⟨"a", none⟩, ⟨"", some "b"⟩] := by
  decide +kernel

end MockRedirect
