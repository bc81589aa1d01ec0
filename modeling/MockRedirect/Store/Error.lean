import MockRedirect.InputError
import MockRedirect.Mock.Id
/-! Why an operation on the stored mocks fails. -/
namespace MockRedirect

inductive StoreError where
  | json (cause : JsonError)
  | notFound (id : MockId)
  | input (cause : InputError)
  | unavailable
  deriving DecidableEq, Repr

def StoreError.message : StoreError → String
  | json cause => "storage json error: " ++ cause.message
  | notFound id => "no mock with id " ++ String.ofList (intText id.value)
  | input cause => cause.message
  | unavailable => "storage io error"

end MockRedirect
