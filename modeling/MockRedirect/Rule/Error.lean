import MockRedirect.Rule.Filter
import MockRedirect.Store.Error
/-! Why an operation on the rule table fails. -/
namespace MockRedirect

/-- Why a transaction is refused. -/
inductive TransactionFault where
  | zeroId
  | idInUse (id : Nat)
  | badFilter (id : Nat) (cause : FilterError)
  | tooMany (count : Nat)
  deriving DecidableEq, Repr

/-- The most rules that a table can hold. -/
def ruleLimit : Nat := 30000

def TransactionFault.message : TransactionFault → String
  | zeroId => "rule id must be at least 1"
  | idInUse id => "rule id " ++ String.ofList (natDigits id) ++ " is already in use"
  | badFilter id cause => "rule " ++ String.ofList (natDigits id) ++ ": " ++ cause.message
  | tooMany count =>
    String.ofList (natDigits count) ++ " rules exceed the limit of " ++
      String.ofList (natDigits ruleLimit)

inductive RuleError where
  | transaction (cause : TransactionFault)
  | template (id : MockId) (text : String)
  | filter (cause : FilterError)
  | store (cause : StoreError)
  | json (cause : JsonError)
  | unavailable
  deriving DecidableEq, Repr

def RuleError.message : RuleError → String
  | transaction cause => "rule transaction rejected: " ++ cause.message
  | template id text =>
    "mock " ++ String.ofList (intText id.value) ++ " has no usable template: " ++ Text.quoted text
  | filter cause => cause.message
  | store cause => cause.message
  | json cause => "rule table json error: " ++ cause.message
  | unavailable => "rule table io error"

end MockRedirect
