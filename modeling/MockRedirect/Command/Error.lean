import MockRedirect.Command.Basic
import MockRedirect.Model.Error
import MockRedirect.Rule.Error
import MockRedirect.Text.Utf8
/-! Why a command fails. -/
namespace MockRedirect

inductive CommandError where
  | reading (source : Source)
  | openingStore (dataDir : String) (cause : StoreError)
  | openingRules (dataDir : String) (cause : RuleError)
  | input (cause : InputError)
  | store (cause : StoreError)
  | rule (cause : RuleError)
  | notReady
  | unavailable (reason : UnavailableReason)
  | generation (cause : GenerationError)
  | unknownMethod (text : String)
  | unknownType (text : String)
  | undecodable (fault : Text.Utf8Fault)
  deriving DecidableEq, Repr

def Text.Utf8Fault.message (f : Text.Utf8Fault) : String :=
  let offset := String.ofList (natDigits f.offset)
  match f.size with
  | some n =>
    "invalid utf-8 sequence of " ++ String.ofList (natDigits n) ++ " bytes from index " ++ offset
  | none => "incomplete utf-8 byte sequence from index " ++ offset

def CommandError.message : CommandError → String
  | reading (.file path) => "reading " ++ path
  | reading .standardInput => "reading template from stdin"
  | openingStore dataDir _ => "opening store in " ++ dataDir
  | openingRules dataDir _ => "opening rule table in " ++ dataDir
  | input cause => cause.message
  | store cause => cause.message
  | rule cause => cause.message
  | notReady => "cannot generate: model is not ready"
  | unavailable reason => "cannot generate: " ++ reason.message
  | generation cause => cause.message
  | unknownMethod text => "unknown request method " ++ Text.quoted text
  | unknownType text => "unknown resource type " ++ Text.quoted text
  | undecodable fault => fault.message

end MockRedirect
