import MockRedirect.Json.Decoder
import MockRedirect.Text.Blank
import MockRedirect.Text.Case
/-! Rules of a request table, and how they are written as JSON. -/
namespace MockRedirect

inductive ResourceType where
  | mainFrame
  | subFrame
  | script
  | xmlHttpRequest
  | other
  deriving DecidableEq, Repr

inductive RequestMethod where
  | get
  | post
  | put
  | patch
  | delete
  | head
  | options
  deriving DecidableEq, Repr

namespace ResourceType

def all : List ResourceType := [mainFrame, subFrame, script, xmlHttpRequest, other]

def name : ResourceType → String
  | mainFrame => "main_frame"
  | subFrame => "sub_frame"
  | script => "script"
  | xmlHttpRequest => "xmlhttprequest"
  | other => "other"

def ofName? (s : String) : Option ResourceType := all.find? (·.name == s)

theorem ofName?_name (t : ResourceType) : ofName? t.name = some t := by cases t <;> decide

def decoder : Decoder ResourceType where
  shape := .word (all.map name)
  get? := fun
    | .str s => ofName? s
    | _ => none

end ResourceType

namespace RequestMethod

def all : List RequestMethod := [get, post, put, patch, delete, head, options]

def name : RequestMethod → String
  | get => "get"
  | post => "post"
  | put => "put"
  | patch => "patch"
  | delete => "delete"
  | head => "head"
  | options => "options"

def ofName? (s : String) : Option RequestMethod := all.find? (·.name == s)

theorem ofName?_name (m : RequestMethod) : ofName? m.name = some m := by cases m <;> decide

/-- The method that a user names, with blanks around it and in any case. -/
def ofText? (s : String) : Option RequestMethod :=
  ofName? (String.ofList (Text.lowercase (Text.trim s.toList)))

def decoder : Decoder RequestMethod where
  shape := .word (all.map name)
  get? := fun
    | .str s => ofName? s
    | _ => none

end RequestMethod

inductive RuleAction where
  | redirect (url : String)
  | block
  deriving DecidableEq, Repr

/-- Which requests a rule is for. An empty list of types or methods admits all of them. -/
structure Condition where
  urlFilter : String
  resourceTypes : List ResourceType
  requestMethods : List RequestMethod
  deriving DecidableEq, Repr

structure Rule where
  id : Nat
  priority : Nat
  action : RuleAction
  condition : Condition
  deriving DecidableEq, Repr

/-- Rules to be removed from a table, and then rules to be added to it. -/
structure Transaction where
  removed : List Nat
  added : List Rule
  deriving DecidableEq, Repr

/-- Numbers of 32 bits. -/
def word32 : Shape := .integer "u32" 0 (Nat.pow 2 32 - 1)

namespace RuleAction

def redirectShape : Shape :=
  .record "struct variant RuleAction::Redirect"
    [⟨"redirect", [], .refused, .record "struct Redirect" [⟨"url", [], .refused, .text⟩]⟩]

def decoder : Decoder RuleAction where
  shape :=
    .tagged "internally tagged enum RuleAction" "type"
      [("redirect", redirectShape), ("block", .record "unit variant RuleAction::Block" [])]
  get? := fun
    | .obj [_, (_, .obj [(_, .str url)])] => some (.redirect url)
    | .obj [_] => some .block
    | _ => none

def toJson : RuleAction → Json
  | redirect url => .obj [("type", .str "redirect"), ("redirect", .obj [("url", .str url)])]
  | block => .obj [("type", .str "block")]

end RuleAction

namespace Condition

def decoder : Decoder Condition where
  shape :=
    .record "struct RuleCondition"
      [⟨"urlFilter", [], .refused, .text⟩,
       ⟨"resourceTypes", [], .replaced (.arr []), .list ResourceType.decoder.shape⟩,
       ⟨"requestMethods", [], .replaced (.arr []), .list RequestMethod.decoder.shape⟩]
  get? := fun
    | .obj [(_, .str urlFilter), (_, types), (_, methods)] => do
      let types ← ResourceType.decoder.list.get? types
      let methods ← RequestMethod.decoder.list.get? methods
      some ⟨urlFilter, types, methods⟩
    | _ => none

/-- Empty lists are left out. -/
def toJson (c : Condition) : Json :=
  let names (key : String) (ns : List String) : Members :=
    if ns = [] then [] else [(key, .arr (ns.map .str))]
  .obj (("urlFilter", .str c.urlFilter) ::
    names "resourceTypes" (c.resourceTypes.map ResourceType.name) ++
    names "requestMethods" (c.requestMethods.map RequestMethod.name))

end Condition

namespace Rule

def defaultPriority : Nat := 1

def decoder : Decoder Rule where
  shape :=
    .record "struct Rule"
      [⟨"id", [], .refused, word32⟩,
       ⟨"priority", [], .replaced (.int defaultPriority), word32⟩,
       ⟨"action", [], .refused, RuleAction.decoder.shape⟩,
       ⟨"condition", [], .refused, Condition.decoder.shape⟩]
  get? := fun
    | .obj [(_, .int id), (_, .int priority), (_, action), (_, condition)] => do
      let action ← RuleAction.decoder.get? action
      let condition ← Condition.decoder.get? condition
      some ⟨id.toNat, priority.toNat, action, condition⟩
    | _ => none

def toJson (r : Rule) : Json :=
  .obj [("id", .int r.id), ("priority", .int r.priority), ("action", r.action.toJson),
    ("condition", r.condition.toJson)]

end Rule

namespace Transaction

def decoder : Decoder Transaction where
  shape :=
    .record "struct RuleTransaction"
      [⟨"removeRuleIds", [], .refused, .list word32⟩,
       ⟨"addRules", [], .refused, .list Rule.decoder.shape⟩]
  get? := fun
    | .obj [(_, .arr removed), (_, added)] => do
      let removed ← removed.mapM fun
        | .int n => some n.toNat
        | _ => none
      let added ← Rule.decoder.list.get? added
      some ⟨removed, added⟩
    | _ => none

def toJson (t : Transaction) : Json :=
  .obj [("removeRuleIds", .arr (t.removed.map fun (n : Nat) => .int n)),
    ("addRules", .arr (t.added.map Rule.toJson))]

end Transaction
end MockRedirect
