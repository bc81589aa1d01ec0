import MockRedirect.Text.Blank
import MockRedirect.Text.Case
/-! The logical verb of a request, carried in a query parameter. -/
namespace MockRedirect

/-- A verb without blanks at its ends and with its ASCII letters in upper case. -/
structure Verb where
  text : String
  deriving DecidableEq, Repr

namespace Verb

/-- The query parameter that carries the verb. -/
def param : String := "MT"

/-- The verb that a text names. -/
def of (s : List Char) : Verb := ⟨String.ofList (Text.uppercase (Text.trim s))⟩

def get : Verb := ⟨"GET"⟩

instance : Inhabited Verb := ⟨get⟩

def isEmpty (v : Verb) : Bool := v.text.isEmpty

/-- The verb, unless it is empty. -/
def filled (v : Verb) : Option Verb := if v.isEmpty then none else some v

example : (of " post\u00a0".toList).text = "POST" := by decide

end Verb
end MockRedirect
