import MockRedirect.Json.Fault
import MockRedirect.Url.Fault
/-! Why something a user entered is refused. -/
namespace MockRedirect

inductive InputError where
  | empty (what : String)
  | malformed (cause : JsonError)
  | endpoint (text : String)
  | url (text : String) (cause : UrlFault)
  | noField (path : String)
  deriving DecidableEq, Repr

namespace InputError

def message : InputError → String
  | empty what => what ++ " is empty"
  | malformed cause => "malformed JSON: " ++ cause.message
  | endpoint text => "invalid endpoint: " ++ text
  | url text cause => "invalid endpoint: " ++ text ++ ": " ++ cause.message
  | noField path => "no field at path " ++ path

end InputError
end MockRedirect
