import ThingTypes.Proofs.Generation.Results
import ThingTypes.Proofs.Resolution.DigestedTexts

/-
  The texts that a build takes the digests of: those of the schemas that are resolved, and those of
  the interfaces of actions and of the Thing itself.
-/

namespace ThingTypes

open Resolution

namespace Assembly

namespace Digesting

open Resolution.Digesting

variable (s : ResolutionSettings)

def payloadType (schema? : Option Json) (fallback path package : String)
    (context : NamingContext) :
    Digesting fun digest =>
      payloadType (s.withDigest digest) schema? fallback path package context :=
  match schema? with
  | none => const (pure none)
  | some schema => bind (const (liftExcept (SchemaNode.ofJson schema path))) fun node =>
    map some (typeAt s _ node { package, context, path := _ })

def actionMethod (package : String) (context : NamingContext) (name : String)
    (action : ActionAffordance) :
    Digesting fun digest => actionMethod (s.withDigest digest) package context name action :=
  bind (payloadType s action.input? _ _ package context) fun _ =>
    map _ (payloadType s action.output? _ _ package context)

def actionMethods (package : String) (context : NamingContext) :
    ∀ actions, Digesting fun digest => actionMethods (s.withDigest digest) package context actions
  | [] => const (pure [])
  | (name, action) :: rest => bind (actionMethod s package context name action) fun method =>
    map (method :: ·) (actionMethods package context rest)

def declareActions (actions : OrderedMap String ActionAffordance) (owner package : String)
    (feature? : Option String) :
    Digesting fun digest => declareActions (s.withDigest digest) actions owner package feature? :=
  ite _ (const (pure none)) <|
    bind (resolveSeparateEnum s _ _ package _) fun actionEnum =>
      bind (actionMethods s package _ _) fun methods =>
        ofText (Fingerprint.memberText (interfaceMembers methods)) fun h => by
          simp only [Fingerprint.ofMembers, h]

def declareAttributes (model : ThingModel) (package : String) :
    Digesting fun digest => declareAttributes (s.withDigest digest) model package :=
  ite _ (const (pure none)) <|
    bind (const (liftExcept model.propertyNodes)) fun _ =>
      map some (classAt s _ _ { package := _, context := _, path := _ })

def declareFeature (package : String) (feature : LoadedFeature) :
    Digesting fun digest => declareFeature (s.withDigest digest) package feature :=
  bind (const (liftExcept (featureName feature))) fun name =>
    bind (const (liftExcept (feature.model.featureNode feature.location name))) fun node =>
      bind (classAt s _ node { package := _, context := _, path := _ }) fun featureClass =>
        map _ (declareActions s feature.model.actions featureClass.name _ _)

def declareFeatures (package : String) :
    ∀ features, Digesting fun digest => declareFeatures (s.withDigest digest) package features
  | [] => const (pure [])
  | feature :: rest => bind (declareFeature s package feature) fun declared =>
    map (declared :: ·) (declareFeatures package rest)

def declareThing (model : ThingModel) (name package : String) (fields : List FieldDecl) :
    Digesting fun digest => declareThing (s.withDigest digest) model name package fields :=
  ofText (Fingerprint.memberText (fields.map fun f => (f.jsonName, f.type.signature))) fun h => by
    simp only [Assembly.declareThing, Fingerprint.ofMembers, h]

def declareAll (thing : LoadedThing) (package : String) :
    Digesting fun digest => declareAll (s.withDigest digest) thing package :=
  bind (declareAttributes s thing.model package) fun _ =>
    bind (declareActions s thing.model.actions _ _ none) fun _ =>
      bind (declareFeatures s package thing.features) fun _ =>
        bind (declareThing s thing.model _ package _) fun _ => const _

end Digesting

/-- The texts that the types of a Thing take the digests of when they are declared. -/
def digestedTexts (s : ResolutionSettings) (thing : LoadedThing) (package : String) :
    List String :=
  (Digesting.declareAll s thing package).texts s.digest {}

/-- Where the digest has no collision among the texts of a Thing, the types of the Thing are those
for a digest that has no collisions. -/
theorem exists_injective_ofThing {s : ResolutionSettings} {thing : LoadedThing} {package : String}
    (hdigest : Set.InjOn s.digest {text | text ∈ digestedTexts s thing package}) :
    ∃ other : Digest, Function.Injective other ∧
      GeneratedModel.ofThing (s.withDigest other) thing package =
        GeneratedModel.ofThing s thing package := by
  obtain ⟨other, hother, hsame⟩ := (Digesting.declareAll s thing package).exists_injective hdigest
  refine ⟨other, hother, ?_⟩
  unfold GeneratedModel.ofThing EStateM.run
  rw [hsame]

end Assembly

namespace GeneratedModel

variable {m : Type → Type} [Monad m]

/-- No two texts that the build takes the digests of have the same one, whatever is loaded. -/
def DigestsApart (load : Loader m) (o : GenerationOptions) (s : ResolutionSettings)
    (location package : String) : Prop :=
  Yields (fun loaded => ∀ thing, loaded.1 = .ok thing →
      Set.InjOn s.digest {text | text ∈ Assembly.digestedTexts s thing package})
    ((Loading.loadThing load o location).run.run ∅)

/-- From memory one Thing is loaded, or none. -/
theorem digestsApart_of_memory {load : Loader Id} {o : GenerationOptions} {s : ResolutionSettings}
    {location package : String}
    (h : (((Loading.loadThing load o location).run.run ∅).run.1.toOption.all fun thing =>
      Set.InjOn s.digest {text | text ∈ Assembly.digestedTexts s thing package})) :
    DigestsApart load o s location package := by
  refine .of_id fun thing hthing => ?_
  rw [hthing] at h
  exact of_decide_eq_true h

/-- Where no two texts have the same digest, a property that models have with a digest without
collisions is one of the models that the build yields. -/
theorem yields_build_of_digestsApart [LawfulMonad m] {load : Loader m} {o : GenerationOptions}
    {s : ResolutionSettings} {location package : String} {P : GeneratedModel → Prop}
    (hdigest : DigestsApart load o s location package)
    (h : ∀ {digest : Digest}, Function.Injective digest → Package.isValid package →
      ∀ thing model, GeneratedModel.ofThing (s.withDigest digest) thing package = .ok model →
        P model) :
    Yields (fun result => ∀ model, result = .ok model → P model)
      (GeneratedModel.build load o s location package) := by
  refine yields_build hdigest fun hvalid thing hthing model hmodel => ?_
  obtain ⟨other, hother, hsame⟩ := Assembly.exists_injective_ofThing hthing
  exact h hother hvalid thing model (hsame.trans hmodel)

end GeneratedModel

end ThingTypes
