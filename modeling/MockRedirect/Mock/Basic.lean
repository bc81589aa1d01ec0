import MockRedirect.Mock.Id
import MockRedirect.Verb
/-! Mocks as they are stored: an endpoint, a verb, and the body that answers for them. -/
namespace MockRedirect

structure Mock where
  id : MockId
  /-- The endpoint as it was typed; empty if that is not known. -/
  typedUrl : String
  urlTemplate : String
  verb : Verb
  body : Json
  enabled : Bool
  deriving Repr

namespace Mock

/-- Older records call some of the fields by other names. -/
def shape : Shape :=
  .record "struct MockRule"
    [⟨"id", [], .refused, MockId.decoder.shape⟩,
     ⟨"originalUrl", [], .replaced (.str ""), .text⟩,
     ⟨"urlTemplate", ["url"], .refused, .text⟩,
     ⟨"verb", ["method"], .replaced (.str Verb.get.text), .text⟩,
     ⟨"body", ["mockData"], .refused, .tree⟩,
     ⟨"enabled", [], .replaced (.bool true), .flag⟩]

def decoder : Decoder Mock where
  shape := shape
  get? := fun
    | .obj [(_, .int id), (_, .str typed), (_, .str template), (_, .str verb), (_, body),
        (_, .bool enabled)] => some ⟨⟨id⟩, typed, template, Verb.of verb.toList, body, enabled⟩
    | _ => none

def toJson (m : Mock) : Json :=
  .obj [("id", m.id.toJson), ("originalUrl", .str m.typedUrl),
    ("urlTemplate", .str m.urlTemplate), ("verb", .str m.verb.text), ("body", m.body),
    ("enabled", .bool m.enabled)]

/-- The endpoint to start from when a mock is edited. -/
def editableUrl (m : Mock) : String := if m.typedUrl = "" then m.urlTemplate else m.typedUrl

end Mock
end MockRedirect
