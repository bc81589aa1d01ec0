import MockRedirect.Body.Edit
import MockRedirect.Endpoint
import MockRedirect.Rule.Sync
import MockRedirect.Template.Annotation
import MockRedirect.Text.Quoted
/-! What the commands print, line by line. -/
namespace MockRedirect.Listing

/-- The text with blanks after it, up to a width. -/
def cell (width : Nat) (s : String) : String :=
  s ++ String.ofList (List.replicate (width - s.length) ' ')

def number (n : Int) : String := String.ofList (intText n)

def yesNo (b : Bool) : String := if b then "yes" else "no"

def onOff (b : Bool) : String := if b then "ON" else "OFF"

/-- A label and what it stands for. -/
def entry (width : Nat) (label value : String) : String := "  " ++ cell width label ++ " " ++ value

/-! ### Mocks -/

/-- Ids and verbs stand in columns that do not keep their width. -/
def mockRow (m : Mock) : String :=
  "  " ++ number m.id.value ++ " " ++ cell 4 (yesNo m.enabled) ++ " " ++ m.verb.text ++ " " ++
    cell 7 (number m.id.ruleId) ++ " " ++ Endpoint.displayPath m.editableUrl

def mockHead : String :=
  "  " ++ cell 16 "ID" ++ " " ++ cell 4 "ON" ++ " " ++ cell 7 "VERB" ++ " " ++ cell 7 "RULE" ++
    " PATH"

def mockTable (ms : List Mock) (on : Bool) : List String :=
  ("Mocking is " ++ onOff on ++ " (" ++ number ms.length ++ " mocks)") ::
    if ms = [] then [] else "" :: mockHead :: ms.map mockRow

/-- The most characters that are shown of a value. -/
def valueWidth : Nat := 48

def shortValue (v : Json) : String :=
  let text := match v with
    | .str s => Text.quoted s
    | v => v.compactText
  if text.length ≤ valueWidth then text
  else String.ofList (text.toList.take (valueWidth - 3)) ++ "..."

/-- A mock with every leaf of its body. -/
def mockCard (m : Mock) : List String :=
  let leaves := m.body.leaves []
  ["Mock " ++ number m.id.value,
    entry 14 "enabled" (yesNo m.enabled),
    entry 14 "verb" m.verb.text,
    entry 14 "endpoint" m.editableUrl,
    entry 14 "template" m.urlTemplate,
    entry 14 "rule id" (number m.id.ruleId),
    ""] ++
  (if leaves = [] then []
    else "Fields" :: leaves.map (fun (p, v) => entry 32 (FieldPath.text p) (shortValue v)) ++ [""]) ++
  ["Body", m.body.prettyText]

/-! ### Templates -/

def endpoint (e : Endpoint) : List String :=
  [entry 10 "template" e.template, entry 10 "path" e.path, entry 10 "verb" e.verb.text]

def fieldAnnotation (f : FieldAnnotation) : String :=
  let a := f.annotation
  entry 24 (f.field.getD "(unattached)") (cell 10 (a.typeTag.getD "-") ++ " " ++ a.note.getD "")

def fieldAnnotations (fs : List FieldAnnotation) : List String :=
  if fs = [] then [] else "Annotations" :: fs.map fieldAnnotation ++ [""]

/-! ### Rules -/

def actionName : RuleAction → String
  | .redirect _ => "redirect"
  | .block => "block"

def ruleRow (id priority action filter : String) : String :=
  "  " ++ cell 7 id ++ " " ++ cell 4 priority ++ " " ++ cell 9 action ++ " " ++ filter

def ruleTable (t : Table) : List String :=
  if t = [] then ["No dynamic rules installed."]
  else
    ruleRow "ID" "PRI" "ACTION" "FILTER" ::
      t.map fun r =>
        ruleRow (number r.id) (number r.priority) (actionName r.action) r.condition.urlFilter

def report (r : Report) : List String :=
  ("Rules synced: " ++ number r.added.length ++ " installed, " ++ number r.removed.length ++
      " removed" ++ if r.globalEnabled then "" else " (mocking is off)") ::
    r.skipped.map fun id =>
      "  skipped mock " ++ number id.value ++ ": its endpoint cannot be expressed as a rule"

example : (shortValue (.str (String.ofList (List.replicate 100 'x')))).length = valueWidth := by
  decide +kernel
example : entry 10 "path" "/a" = "  path       /a" := by decide +kernel

end MockRedirect.Listing
