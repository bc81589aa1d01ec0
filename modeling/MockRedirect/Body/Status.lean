import MockRedirect.Json.Basic
/-! The response status inside a body. -/
namespace MockRedirect

/-- The top-level field with the response status. -/
def statusField : String := "ResponseStatus"

/-- The error indicators inside the status; they are zero in every body. -/
def statusErrorFields : List String := ["ErrorModule", "ErrorCode"]

namespace Json

/-- Sets the error indicators of the status to zero, if the tree has a status object. -/
def zeroStatus : Json → Json
  | .obj ms =>
    match Members.get? statusField ms with
    | some (.obj status) =>
      .obj (Members.put statusField
        (.obj (statusErrorFields.foldl (fun acc key => Members.put key (.int 0) acc) status)) ms)
    | _ => .obj ms
  | v => v

end Json
end MockRedirect
