import ThingTypes.Generation.Options
import ThingTypes.ThingModel.Reader

/-
  Loading Thing Models. A model is loaded with its references inlined and with its base models
  merged underneath, one after the other along the chain of `tm:extends` links. A model may have
  features, each with a model of its own.
-/

namespace ThingTypes

variable {m : Type → Type} [Monad m]

/-- A feature of a Thing: the link to its model, and the model with its location. -/
structure LoadedFeature where
  link : Link
  location : String
  model : ThingModel
deriving Inhabited

/-- A Thing Model together with the models of its features. -/
structure LoadedThing where
  model : ThingModel
  features : List LoadedFeature
deriving Inhabited

namespace Loading

/-- Loads the model at a location, without its bases. -/
def loadSingle (load : Loader m) (o : GenerationOptions) (location : String) :
    InlineM m ThingModel := do
  let document ← loadDocument load location
  let inlined ← inlineReferences load o.inliningSettings location document
  liftExcept (ThingModel.ofDocument inlined location)

/-- Merges the bases of a model, at most `remaining` of them. The link to the next base is looked up
in the model merged so far, and its href is relative to the document that declared it. -/
def mergeBases (load : Loader m) (o : GenerationOptions) (start : String) :
    Nat → ThingModel → String → InlineM m ThingModel
  | remaining, model, current => do
    match ← liftExcept (model.extendsLink current) with
    | none => return model
    | some link =>
      match remaining with
      | 0 =>
        throw (.referenceDepthExceeded (start ++ " (" ++ extendsRelation ++ ")")
          o.maxReferenceDepth)
      | remaining + 1 =>
        let location := Location.resolve (link.origin?.getD current) link.href
        let base ← loadSingle load o location
        mergeBases load o start remaining (model.mergeBase base) location

/-- Loads the model at a location with all its bases. -/
def loadModel (load : Loader m) (o : GenerationOptions) (location : String) :
    InlineM m ThingModel := do
  let model ← loadSingle load o location
  mergeBases load o location o.maxReferenceDepth model location

def loadFeatures (load : Loader m) (o : GenerationOptions) (location : String) :
    List Link → InlineM m (List LoadedFeature)
  | [] => return []
  | link :: links => do
    let location' := Location.resolve (link.origin?.getD location) link.href
    let model ← loadModel load o location'
    let features ← loadFeatures load o location links
    return { link, location := location', model } :: features

/-- Loads a Thing with its features. -/
def loadThing (load : Loader m) (o : GenerationOptions) (location : String) :
    InlineM m LoadedThing := do
  let model ← loadModel load o location
  let features ← loadFeatures load o location model.submodels
  return { model, features }

end Loading

end ThingTypes
