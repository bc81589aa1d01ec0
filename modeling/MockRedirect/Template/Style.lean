import MockRedirect.Json.Document
import MockRedirect.Template.Clean
/-! How templates and the answers of models are written: as JSON with comments, and with members that do
not belong to the body. -/
namespace MockRedirect.Template

/-- Blanks and block comments. -/
inductive IsGap : List Char → Prop
  | nil : IsGap []
  | blank {c : Char} {s : List Char} (hc : Json.isSpace c = true) (h : IsGap s) : IsGap (c :: s)
  | comment {inner s : List Char} (hinner : ¬['*', '/'] <:+: inner) (h : IsGap s) :
    IsGap ('/' :: '*' :: (inner ++ '*' :: '/' :: s))

/-- A template. Meta members may come on top, with a value or without one. -/
def annotated : Document.Style where
  gap := IsGap
  extra k := isMetaKey k = true
  bare k := isMetaKey k = true
  trailing := False

/-- The answer of a model. Noise may come on top, and a comma may trail. -/
def sloppy : Document.Style where
  gap := IsGap
  extra k := isNoise k = true
  bare k := isMetaKey k = true
  trailing := True

end MockRedirect.Template
