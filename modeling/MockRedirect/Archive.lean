import MockRedirect.Mock.Draft
/-! HTTP archives: recorded requests with their responses, and the drafts they give. -/
namespace MockRedirect
open Text

/-- What is used of an entry of an archive. -/
structure Recording where
  url : String
  status : Int
  text : Option String
  deriving DecidableEq, Repr

namespace Archive

/-- What marks a request as a call of the API. -/
def defaultMarker : String := "ISAPI"

def content : Shape :=
  .record "struct HarContent" [⟨"text", [], .replacedWhenNamed .null, .optional .text⟩]

def noContent : Json := .obj [("text", .null)]

def response : Shape :=
  .record "struct HarResponse"
    [⟨"status", [], .replaced (.int 0), .integer "i64" (-Nat.pow 2 63) (Nat.pow 2 63 - 1)⟩,
     ⟨"content", [], .replaced noContent, content⟩]

def noResponse : Json := .obj [("status", .int 0), ("content", noContent)]

def request : Shape := .record "struct HarRequest" [⟨"url", [], .replaced (.str ""), .text⟩]

def noRequest : Json := .obj [("url", .str "")]

def entry : Shape :=
  .record "struct HarEntry"
    [⟨"request", [], .replaced noRequest, request⟩,
     ⟨"response", [], .replaced noResponse, response⟩]

def log : Shape := .record "struct HarLog" [⟨"entries", [], .replaced (.arr []), .list entry⟩]

def noLog : Json := .obj [("entries", .arr [])]

def shape : Shape := .record "struct HarArchive" [⟨"log", [], .replaced noLog, log⟩]

def recording? : Json → Option Recording
  | .obj [(_, .obj [(_, .str url)]), (_, .obj [(_, .int status), (_, .obj [(_, text)])])] =>
    match text with
    | .null => some ⟨url, status, none⟩
    | .str text => some ⟨url, status, some text⟩
    | _ => none
  | _ => none

def decoder : Decoder (List Recording) where
  shape := shape
  get? := fun
    | .obj [(_, .obj [(_, .arr entries)])] => entries.mapM recording?
    | _ => none

/-- The entries of an archive. -/
def parse (text : String) : Except InputError (List Recording) :=
  if isBlankText text then .error (.empty "archive")
  else (decoder.parse text.toList).mapError .malformed

/-- The draft for an entry whose response is JSON and whose URL is a full one. -/
def draft? (r : Recording) : Option Draft := do
  let text ← r.text
  guard (text ≠ "")
  let body ← (Json.parse text.toList).toOption
  let address ← (Address.read false r.url.toList).toOption
  (Draft.ofTree r.url (address.verb?.getD .get) body).toOption

/-- The drafts for the entries whose URL contains the marker. -/
def drafts (entries : List Recording) (marker : String) : List Draft :=
  (entries.filter fun r => contains marker.toList r.url.toList).filterMap draft?

end Archive
end MockRedirect
