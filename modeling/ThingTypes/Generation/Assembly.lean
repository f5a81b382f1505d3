import ThingTypes.Generation.Feature
import ThingTypes.Generation.GeneratedModel
import ThingTypes.Generation.Loading
import ThingTypes.Package
import ThingTypes.Resolution.Schema

/-
  From loaded models to declared types. The attributes of the Thing come first, then its actions,
  then the features in the order of their links, and at last the class of the Thing itself.
-/

namespace ThingTypes

/-- The name of a Thing without a usable title. -/
def defaultThingName : String := "Thing"

/-- The class of the properties of a Thing. -/
def attributesName : String := "Attributes"

/-- The enum of the actions of a Thing or feature. -/
def actionEnumName : String := "ActionName"

namespace Assembly

open Resolution

/-- The type of an action input or output, named by its title or else by `fallback`. -/
def payloadType (s : ResolutionSettings) (schema? : Option Json) (fallback path package : String)
    (context : NamingContext) : ResolveM (Option TypeRef) := do
  match schema? with
  | none => return none
  | some schema =>
    let node ← liftExcept (SchemaNode.ofJson schema path)
    let title? := node.info.title?.filter fun title => !(Identifier.className title).isEmpty
    return some (← resolveField s (title?.getD fallback) node package context)

def actionMethod (s : ResolutionSettings) (package : String) (context : NamingContext)
    (name : String) (action : ActionAffordance) : ResolveM ActionMethod := do
  let stem := Identifier.className name
  let path := "#/actions/" ++ name
  let input? ←
    payloadType s action.input? (stem ++ "Input") (path ++ "/input") package context
  let output? ←
    payloadType s action.output? (stem ++ "Output") (path ++ "/output") package context
  return {
    jsonName := name
    name := Identifier.propertyName name
    constant := Identifier.constantName name
    description? := action.description?.or action.title?
    input?
    output? }

def actionMethods (s : ResolutionSettings) (package : String) (context : NamingContext) :
    List (String × ActionAffordance) → ResolveM (List ActionMethod)
  | [] => return []
  | (name, action) :: rest => do
    let method ← actionMethod s package context name action
    let methods ← actionMethods s package context rest
    return method :: methods

/-- What decides whether two action interfaces are the same: names, inputs and outputs. -/
def interfaceMembers (methods : List ActionMethod) : List (String × String) :=
  let signature (type? : Option TypeRef) := (type?.getD .unit).signature
  methods.map fun m => (m.jsonName, signature m.input? ++ "->" ++ signature m.output?)

/-- The schema of the enum that lists actions. -/
def actionEnumNode (names : List String) : SchemaNode :=
  .mk { title? := some actionEnumName, enumeration? := some (names.map Json.string) }
    (.scalar .string)

/-- Declares the interface for some actions, if there are any. -/
def declareActions (s : ResolutionSettings) (actions : OrderedMap String ActionAffordance)
    (owner package : String) (feature? : Option String) : ResolveM (Option ActionInterface) := do
  if actions.isEmpty then return none
  else
    let context : NamingContext := { role := .other, feature? }
    let actionEnum ←
      resolveSeparateEnum s actionEnumName (actionEnumNode actions.keys) package context
    let methods ← actionMethods s package context actions.entries
    let fingerprint := Fingerprint.ofMembers s.digest (interfaceMembers methods)
    let name := owner ++ "Actions"
    match ← claimCandidate name none feature? package fingerprint with
    | none => throw (.malformedSchema package (.noFreeName name))
    | some claim => return some { package, name := claim.name, actionEnum, methods }

/-- Declares the class of the properties of the Thing, if it has any. -/
def declareAttributes (s : ResolutionSettings) (model : ThingModel) (package : String) :
    ResolveM (Option TypeName) := do
  if model.properties.isEmpty then return none
  else
    let properties ← liftExcept model.propertyNodes
    let node := SchemaNode.ofProperties properties model.requiredProperties (some attributesName)
    return some (← resolveClass s attributesName node (Package.child package "attributes")
      { role := .thingAttribute })

/-- The name of a feature: that of the instance or else the title, if a class can be named so. -/
def featureName (feature : LoadedFeature) : Except GenerationError String :=
  let name? := feature.link.instanceName?.or feature.model.title?
  match name?.filter (fun name => !(Identifier.className name).isEmpty) with
  | some name => .ok name
  | none => .error (.invalidModel feature.location .unnamedFeature)

/-- Declares the types of a feature, in a package of its own. -/
def declareFeature (s : ResolutionSettings) (package : String) (feature : LoadedFeature) :
    ResolveM FeatureModel := do
  let name ← liftExcept (featureName feature)
  let className := Identifier.className name
  let inner := Package.child (Package.child package "features") (Identifier.packageSegment name)
  let node ← liftExcept (feature.model.featureNode feature.location name)
  let featureClass ←
    resolveClass s className node inner { role := .feature, feature? := some className }
  let actions? ← declareActions s feature.model.actions featureClass.name
    (Package.child inner "actions") (some className)
  return {
    name := Identifier.propertyName name
    featureClass
    actions?
    location := feature.location }

def declareFeatures (s : ResolutionSettings) (package : String) :
    List LoadedFeature → ResolveM (List FeatureModel)
  | [] => return []
  | feature :: rest => do
    let declared ← declareFeature s package feature
    let others ← declareFeatures s package rest
    return declared :: others

/-- The fields of the Thing: its attributes and its features. -/
def thingFields (attributes? : Option TypeName) (features : List FeatureModel) : List FieldDecl :=
  (attributes?.map fun type => FieldDecl.ofKey "attributes" (.classType type) true).toList
    ++ features.map fun f => FieldDecl.ofKey f.name (.classType f.featureClass) true

/-- Declares the class of the Thing itself. -/
def declareThing (s : ResolutionSettings) (model : ThingModel) (name package : String)
    (fields : List FieldDecl) : ResolveM TypeName := do
  let members := fields.map fun f => (f.jsonName, f.type.signature)
  let fingerprint := Fingerprint.ofMembers s.digest members
  match ← claimCandidate name none none package fingerprint with
  | none => throw (.malformedSchema package (.noFreeName name))
  | some claim =>
    let thing : TypeName := { package, name := claim.name }
    if claim.existing then return thing
    else
      let info : SchemaInfo := { title? := model.title?, description? := model.description? }
      modifyCatalog fun c =>
        { c with
          classes := c.classes.insertClass
            ((ClassDecl.ofSchema thing fingerprint .plain .other info).withFields fields) }
      return thing

/-- The class name of a Thing. -/
def thingName (model : ThingModel) : String :=
  let name := Identifier.className (model.nameOr defaultThingName)
  if name.isEmpty then defaultThingName else name

/-- Declares all types of a Thing. -/
def declareAll (s : ResolutionSettings) (thing : LoadedThing) (package : String) :
    ResolveM GeneratedModel := do
  let name := thingName thing.model
  let attributes? ← declareAttributes s thing.model package
  let actions? ←
    declareActions s thing.model.actions name (Package.child package "actions") none
  let features ← declareFeatures s package thing.features
  let type ← declareThing s thing.model name package (thingFields attributes? features)
  return {
    package, thing := type, attributes?, actions?, features, catalog := (← get).catalog }

end Assembly

/-- The types of a Thing, starting from nothing. -/
def GeneratedModel.ofThing (s : ResolutionSettings) (thing : LoadedThing) (package : String) :
    Except GenerationError GeneratedModel :=
  match (Assembly.declareAll s thing package).run {} with
  | .ok model _ => .ok model
  | .error e _ => .error e

variable {m : Type → Type} [Monad m]

/-- Builds the model at a location: the package is checked, the documents are loaded, and then the
types are declared. -/
def GeneratedModel.build (load : Loader m) (o : GenerationOptions) (s : ResolutionSettings)
    (location package : String) : m (Except GenerationError GeneratedModel) := do
  match Package.check package with
  | .error e => return .error e
  | .ok () =>
    match ← ((Loading.loadThing load o location).run.run ∅ : m _) with
    | (.error e, _) => return .error e
    | (.ok thing, _) => return GeneratedModel.ofThing s thing package

end ThingTypes
