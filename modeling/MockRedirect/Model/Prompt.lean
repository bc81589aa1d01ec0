import MockRedirect.Schema
import MockRedirect.Template.Annotation
import MockRedirect.Template.Clean
/-! What a language model is told when it has to fill in a template. -/
namespace MockRedirect

/-- A task for a model, and the schema that its answer has to follow. -/
structure Prompt where
  instruction : String
  constraint : Json
  deriving Repr

namespace Prompt

/-- The role of the model, sent once for each session. -/
def role : String :=
  "You are an API mock data generator. Given a JSON response template with " ++
  "field annotations, you produce one realistic, internally consistent sample " ++
  "response that follows the template's structure exactly.\n" ++
  "\n" ++
  "Respond ONLY with JSON. No markdown fences, no comments, no explanation."

/-- The task, around a template whose annotations have been condensed. -/
def wording (template : String) : String :=
  "Generate realistic mock data for this annotated JSON response template:\n" ++
  "\n" ++
  template ++ "\n" ++
  "\n" ++
  "Annotation format: /* xs:<type>, note:<description> */ next to a field.\n" ++
  "- xs is the field's data type (integer, string, object, array, ...)\n" ++
  "- note describes the field's business meaning\n" ++
  "\n" ++
  "Rules:\n" ++
  "1. Keep exactly the structure of the template: same keys, same nesting, same order.\n" ++
  "2. Give every field a value whose type matches its xs type or its sample value.\n" ++
  "3. Use the note to pick values that make sense for the business meaning.\n" ++
  "4. Ignore every field whose key starts with '@'.\n" ++
  "5. For arrays, produce 1 to 3 realistic items.\n" ++
  "6. Keep ResponseStatus, ErrorCode and ErrorModule at their success defaults.\n" ++
  "7. Strings must be meaningful for the field name, not random text.\n" ++
  "8. Return only valid JSON that parses as-is."

/-- The prompt for a template: it shows the condensed annotations, and asks for an answer of the
shape that the sample values have. -/
def ofTemplate (template : List Char) : Prompt where
  instruction := wording (String.ofList (Template.hints template))
  constraint := (Schema.derive (Template.sampleText template)).toJson

end Prompt
end MockRedirect
