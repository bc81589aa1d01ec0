import MockRedirect.Model.Error
import MockRedirect.Model.Prompt
/-! Language models, as a generator uses them. -/
namespace MockRedirect

/-- What a model says about itself. A downloadable model has to be fetched before it can be used. -/
inductive Availability where
  | available
  | downloadable
  | downloading
  | unavailable
  deriving DecidableEq, Repr

/-- A model whose sessions are of type `σ`. -/
structure LanguageModel (m : Type → Type) (σ : Type) where
  availability : m (Except GenerationError Availability)
  /-- Has the model fetched; it answers as soon as the download has begun. -/
  requestDownload : m (Except GenerationError Unit)
  /-- Opens a session in which the model plays the role described. -/
  openSession : (role : String) → m (Except GenerationError σ)
  /-- One question and its reply; `none` if the reply is still to come. -/
  ask : σ → Prompt → m (Option (Except GenerationError String))
  close : σ → m Unit

end MockRedirect
