import ThingTypes.Catalog.Basic

/-
  The result of a generation run: the types that were declared and what they are to the Thing.
-/

namespace ThingTypes

structure ActionMethod where
  /-- The key of the action in the model. -/
  jsonName : String
  name : String
  /-- The constant that stands for the action. -/
  constant : String
  description? : Option String := none
  input? : Option TypeRef := none
  output? : Option TypeRef := none
deriving Repr, DecidableEq, Inhabited

/-- The actions of a Thing or a feature. -/
structure ActionInterface where
  package : String
  name : String
  /-- The enum that lists the actions. -/
  actionEnum : TypeName
  methods : List ActionMethod
deriving Repr, DecidableEq, Inhabited

def ActionInterface.typeName (i : ActionInterface) : TypeName where
  package := i.package
  name := i.name

structure FeatureModel where
  /-- The field of the Thing that holds the feature. -/
  name : String
  featureClass : TypeName
  actions? : Option ActionInterface
  /-- Where the model of the feature was loaded from. -/
  location : String
deriving Repr, DecidableEq, Inhabited

structure GeneratedModel where
  package : String
  thing : TypeName
  /-- The class of the properties of the Thing. -/
  attributes? : Option TypeName
  actions? : Option ActionInterface
  features : List FeatureModel
  catalog : Catalog
deriving Inhabited

namespace GeneratedModel

def thingClass? (m : GeneratedModel) : Option ClassDecl :=
  m.catalog.classes.class? m.thing.key

/-- The action interfaces of the Thing and of its features. -/
def interfaces (m : GeneratedModel) : List ActionInterface :=
  m.actions?.toList ++ m.features.filterMap FeatureModel.actions?

end GeneratedModel

end ThingTypes
