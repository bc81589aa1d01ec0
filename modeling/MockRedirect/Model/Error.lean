import MockRedirect.InputError
import MockRedirect.Mock.Id
/-! Why a model cannot be used, and why a template was not filled in. -/
namespace MockRedirect

inductive UnavailableReason where
  | notProbed
  | downloading
  | unsupported
  | downloadFailed
  | sessionFailed
  | destroyed
  deriving DecidableEq, Repr

def UnavailableReason.message : UnavailableReason → String
  | notProbed => "model has not been probed"
  | downloading => "model is still downloading"
  | unsupported => "model is not supported here"
  | downloadFailed => "model download could not be started"
  | sessionFailed => "model session could not be created"
  | destroyed => "generator was destroyed"

inductive GenerationError where
  | emptyTemplate
  | unavailable (reason : UnavailableReason)
  | malformed (cause : InputError)
  | cancelled
  | backend (text : String)
  /-- No response came, or it was not what the model is expected to send. -/
  | exchange
  | refused (status : Nat) (body : String)
  deriving DecidableEq, Repr

def GenerationError.message : GenerationError → String
  | emptyTemplate => "template is empty"
  | unavailable reason => "generation capability unavailable: " ++ reason.message
  | malformed cause => "model output is not valid JSON: " ++ cause.message
  | cancelled => "generation cancelled"
  | backend text => "model backend error: " ++ text
  | exchange => "HTTP request failed"
  | refused status body =>
    "server returned " ++ String.ofList (natDigits status) ++ ": " ++ body

end MockRedirect
