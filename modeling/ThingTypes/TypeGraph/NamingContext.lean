import ThingTypes.TypeGraph.TypeName

/-
  Where a schema stands while its type gets a name: below which class, in which feature and in
  which role.
-/

namespace ThingTypes

inductive Role where
  /-- The root object of a feature. -/
  | feature
  /-- A direct property of a feature. -/
  | featureProperty
  /-- An attribute of the Thing itself. -/
  | thingAttribute
  | other
deriving Repr, DecidableEq, Inhabited

/-- The role one level deeper. -/
def Role.descend : Role → Role
  | feature => featureProperty
  | featureProperty | thingAttribute | other => other

structure NamingContext where
  role : Role
  feature? : Option String := none
  parent? : Option TypeName := none
deriving Repr, DecidableEq, Inhabited

namespace NamingContext

/-- The context of a schema that belongs to nothing else. -/
def root : NamingContext where
  role := .other

/-- The context of what stands inside a type. Without a parent the one from before stays. -/
def descend (c : NamingContext) (parent? : Option TypeName) : NamingContext where
  role := c.role.descend
  feature? := c.feature?
  parent? := parent?.or c.parent?

def withParent (c : NamingContext) (parent : TypeName) : NamingContext :=
  { c with parent? := some parent }

def parentName? (c : NamingContext) : Option String :=
  c.parent?.map TypeName.name

end NamingContext

end ThingTypes
