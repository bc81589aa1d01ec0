import MockRedirect.Endpoint
import MockRedirect.Mock.Basic
import MockRedirect.Rule.Basic
import MockRedirect.Rule.Error
import Std.Data.HashSet
/-! The rules that a list of mocks asks for: one redirect for each enabled mock. -/
namespace MockRedirect
open Text

/-- Rule ids up to this one belong to the mocks; higher ids are never touched. -/
def lastManagedId : Nat := 65535

def isManaged (id : Nat) : Bool := 1 ≤ id && id ≤ lastManagedId

namespace Mock

/-- What every redirect leads to, before the body in percent-encoding. -/
def dataUrlStart : String := "data:application/json,"

def dataUrl (body : Json) : String :=
  dataUrlStart ++ String.ofList (percentEncode isUnreserved body.compact)

/-- The filter for a template: any origin, the path, and the verb up to a separator or the end. An
empty verb gives way to that of the template. -/
def filterText (template : String) (verb : Verb) : String :=
  let (path, own) := Endpoint.splitTemplate template
  let verb := if verb.isEmpty then own.getD .get else verb
  let path := if startsWith ['/'] path.toList then path else "/" ++ path
  "*" ++ Endpoint.templateText path verb ++ "^"

/-- The redirect rule of a mock. Its template must not be blank, and its filter must be ASCII. -/
def rule (m : Mock) (id : Nat) : Except RuleError Rule :=
  let template := trimmed m.urlTemplate
  let filter := filterText template m.verb
  if template = "" ∨ !isAscii filter.toList then .error (.template m.id m.urlTemplate)
  else
    .ok ⟨id, Rule.defaultPriority, .redirect (dataUrl m.body),
      ⟨filter, [.xmlHttpRequest], [.post]⟩⟩

end Mock

/-- The rules planned so far with their ids, and the enabled mocks that got none. -/
structure Plan where
  used : Std.HashSet Nat
  rules : Array Rule
  skipped : Array MockId

namespace Plan

def empty : Plan := ⟨∅, #[], #[]⟩

/-- The managed id after this one; the first follows the last. -/
def nextId (id : Nat) : Nat := id % lastManagedId + 1

/-- The first managed id that is not used, from the preferred one on. -/
def freeId? (used : Std.HashSet Nat) (preferred : Nat) : Option Nat := go lastManagedId preferred
where
  go : Nat → Nat → Option Nat
    | 0, _ => none
    | fuel + 1, id => if used.contains id then go fuel (nextId id) else some id

/-- Plans one more mock; a disabled one changes nothing. -/
def add (p : Plan) (m : Mock) : Plan :=
  if m.enabled then
    match freeId? p.used m.id.ruleId with
    | none => { p with skipped := p.skipped.push m.id }
    | some id =>
      match m.rule id with
      | .ok r => { p with used := p.used.insert id, rules := p.rules.push r }
      | .error _ => { p with skipped := p.skipped.push m.id }
  else p

def ofMocks (mocks : List Mock) : Plan := mocks.foldl add empty

end Plan
end MockRedirect
