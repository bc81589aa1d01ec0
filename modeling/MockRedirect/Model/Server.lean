import MockRedirect.Model.Language
import MockRedirect.Model.Pull
import MockRedirect.Text.Pieces
/-! Language models behind a model server, which lists its models, pulls a model on request, and
chats with one. -/
namespace MockRedirect

inductive ServerMethod where
  | get
  | post
  deriving DecidableEq, Repr

/-- A request to a server. -/
structure ServerRequest where
  method : ServerMethod
  url : String
  body : Option Json
  deriving Repr

/-- A response; its body comes in chunks, and may be cut off. -/
structure ServerResponse where
  status : Nat
  chunks : List (List Nat)
  whole : Bool
  deriving DecidableEq, Repr

/-- A way to a server. There is no response if the request does not get through. -/
abbrev Transport (m : Type → Type) := ServerRequest → m (Option ServerResponse)

/-- The transport of a place from which no server can be reached. -/
def Transport.unreachable : Transport Id := fun _ => none

/-- Where a server is, and which of its models is used. -/
structure Server where
  base : String
  model : String
  deriving DecidableEq, Repr

namespace ServerResponse

/-- A response with a status that tells of success. -/
def check : Option ServerResponse → Except GenerationError ServerResponse
  | none => .error .exchange
  | some r =>
    if 200 ≤ r.status ∧ r.status < 300 then .ok r
    else
      let body := if r.whole then String.ofList (Text.decodeLossy r.chunks.flatten) else ""
      .error (.refused r.status body)

/-- The record in the body of a response. -/
def record (d : Decoder α) (r : ServerResponse) : Except GenerationError α :=
  if r.whole then
    match Text.decode r.chunks.flatten with
    | .ok text => (d.parse text).mapError fun _ => .exchange
    | .error _ => .error .exchange
  else .error .exchange

end ServerResponse

namespace Server

/-- Slashes at the end of the address are dropped. -/
def of (url model : String) : Server :=
  ⟨String.ofList (url.toList.reverse.dropWhile (· == '/')).reverse, model⟩

/-! ### Messages -/

/-- The names of the models that a server lists. -/
def listing : Decoder (List String) where
  shape := .record "a model listing"
    [⟨"models", [], .replaced (.arr []),
      .list (.record "a listed model" [⟨"name", [], .refused, .text⟩])⟩]
  get? := fun
    | .obj [(_, .arr tags)] => tags.mapM fun
      | .obj [(_, .str name)] => some name
      | _ => none
    | _ => none

/-- The text of a chat response. -/
def chatReply : Decoder String where
  shape := .record "a chat response"
    [⟨"message", [], .refused, .record "a chat message" [⟨"content", [], .refused, .text⟩]⟩]
  get? := fun
    | .obj [(_, .obj [(_, .str text)])] => some text
    | _ => none

def pullBody (s : Server) : Json := .obj [("model", .str s.model), ("stream", .bool true)]

def chatBody (s : Server) (role : String) (p : Prompt) : Json :=
  let message (author content : String) : Json :=
    .obj [("role", .str author), ("content", .str content)]
  .obj [("model", .str s.model), ("stream", .bool false), ("format", p.constraint),
    ("messages", .arr [message "system" role, message "user" p.instruction])]

/-- Whether a listed model is the one in use, whatever its tag. -/
def isNamed (s : Server) (listed : String) : Bool :=
  listed == s.model || Text.startsWith (s.model.toList ++ [':']) listed.toList

/-! ### The model -/

/-- A model that the server lists is available. Of another one, the state of its download tells. -/
def availabilityOf (s : Server) (listed : List String) (d : Download) : Availability × Download :=
  if listed.any s.isNamed then (.available, { d with state := .idle })
  else
    match d.state with
    | .idle => (.downloadable, d)
    | .pulling => (.downloading, d)
    | .failed _ => (.unavailable, d)

variable {m : Type → Type} [Monad m]

def availability (send : Transport m) (s : Server) :
    StateT Download m (Except GenerationError Availability) := do
  let response ← send ⟨.get, s.base ++ "/api/tags", none⟩
  match (ServerResponse.check response).bind (ServerResponse.record listing) with
  | .ok listed => modifyGet fun d => let (a, d) := s.availabilityOf listed d; (.ok a, d)
  | .error e => pure (.error e)

/-- Requests a pull; the rest of its stream is followed later. -/
def requestDownload (send : Transport m) (s : Server) :
    StateT Download m (Except GenerationError Unit) := do
  let response ← send ⟨.post, s.base ++ "/api/pull", some s.pullBody⟩
  match ServerResponse.check response with
  | .ok r => modifyGet (Download.receive r.chunks r.whole)
  | .error e => pure (.error e)

/-- One chat; a session is the role that the model plays in it. -/
def chat (send : Transport m) (s : Server) (role : String) (p : Prompt) :
    StateT Download m (Except GenerationError String) := do
  let response ← send ⟨.post, s.base ++ "/api/chat", some (s.chatBody role p)⟩
  pure ((ServerResponse.check response).bind (ServerResponse.record chatReply))

/-- The model of a server. The server keeps nothing of a session, so closing one sends nothing. -/
def languageModel (send : Transport m) (s : Server) : LanguageModel (StateT Download m) String where
  availability := s.availability send
  requestDownload := s.requestDownload send
  openSession := fun role => pure (.ok role)
  ask := fun role p => some <$> s.chat send role p
  close := fun _ => pure ()

end Server
end MockRedirect
