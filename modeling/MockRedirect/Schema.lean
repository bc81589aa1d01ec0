import MockRedirect.Json.Reader
/-! The structural schema of a sample body, as a JSON Schema. -/
namespace MockRedirect

inductive ScalarType where
  | string
  | number
  | boolean
  | null
  deriving DecidableEq, Repr

def ScalarType.name : ScalarType → String
  | string => "string"
  | number => "number"
  | boolean => "boolean"
  | null => "null"

/-- What a body may look like. A closed object requires each of its properties and allows nothing
else; an open one allows anything. -/
inductive Schema where
  | closed (properties : List (String × Schema))
  | array (items : Schema)
  | scalar (type : ScalarType)
  | any
  | openObject
  deriving Repr, Inhabited

namespace Schema

mutual
/-- The schema of a sample. An array is described by its first element; fields without a name are
left out. -/
def of : Json → Schema
  | .obj ms => .closed (ofMembers ms)
  | .arr xs => .array (ofFirst xs)
  | .str _ => .scalar .string
  | .int _ => .scalar .number
  | .float _ => .scalar .number
  | .bool _ => .scalar .boolean
  | .null => .scalar .null
def ofFirst : List Json → Schema
  | [] => .any
  | v :: _ => of v
def ofMembers : Members → List (String × Schema)
  | [] => []
  | (k, v) :: ms => if k = "" then ofMembers ms else (k, of v) :: ofMembers ms
end

mutual
def toJson : Schema → Json
  | .closed ps =>
    .obj [("type", .str "object"), ("properties", .obj (propertiesJson ps)),
      ("required", .arr (ps.map fun (k, _) => .str k)), ("additionalProperties", .bool false)]
  | .array items => .obj [("type", .str "array"), ("items", items.toJson)]
  | .scalar t => .obj [("type", .str t.name)]
  | .any => .obj []
  | .openObject => .obj [("type", .str "object"), ("additionalProperties", .bool true)]
def propertiesJson : List (String × Schema) → Members
  | [] => []
  | (k, s) :: ps => (k, s.toJson) :: propertiesJson ps
end

/-- The schema of a sample given as text; an unreadable sample allows any object. -/
def derive (sample : List Char) : Schema :=
  match Json.parse sample with
  | .ok v => of v
  | .error _ => .openObject

example : (derive "\x7b\"z\":null,\"\":1,\"a\":[]\x7d".toList).toJson.compactText =
    "\x7b\"type\":\"object\",\"properties\":\x7b\"z\":\x7b\"type\":\"null\"\x7d,\"a\":\x7b\"type\":\"array\",\"items\":\x7b\x7d\x7d\x7d," ++
      "\"required\":[\"z\",\"a\"],\"additionalProperties\":false\x7d" := by decide +kernel

end Schema
end MockRedirect
