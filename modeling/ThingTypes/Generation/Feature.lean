import ThingTypes.Grouping
import ThingTypes.Identifier.Names
import ThingTypes.ThingModel.Basic

/-
  The schema of a feature: an object for each category of its properties, then the properties
  without a category.
-/

namespace ThingTypes.ThingModel

/-- The object for the properties of a category. -/
def categoryNode (required : List String) (category : String)
    (members : List (String × SchemaNode)) : SchemaNode :=
  .ofProperties members ((members.map Prod.fst).filter (required.contains ·))
    (some (Identifier.className category))

/-- The first property without a category that has the name of a category. -/
def categoryCollision? (g : CategoryGroups (String × SchemaNode)) : Option String :=
  (g.ungrouped.map Prod.fst).find? (g.categories.contains ·)

/-- The properties of the feature schema from the grouped properties of the model. -/
def featureProperties (required : List String) (g : CategoryGroups (String × SchemaNode)) :
    List (String × SchemaNode) :=
  g.grouped.entries.map (fun (category, members) =>
      (category, categoryNode required category members))
    ++ g.ungrouped

/-- The schema of a feature. Categories are always present; which of the other properties are is
up to the model. -/
def featureNode (m : ThingModel) (location title : String) : Except GenerationError SchemaNode := do
  let nodes ← m.propertyNodes
  let required := m.requiredProperties
  let groups := CategoryGroups.ofList (fun (property : String × SchemaNode) =>
    property.2.info.category?) nodes
  match categoryCollision? groups with
  | some property => throw (.invalidModel location (.categoryCollision property))
  | none =>
    return .ofProperties (featureProperties required groups)
      (groups.categories ++ (groups.ungrouped.map Prod.fst).filter (required.contains ·))
      (some title)

end ThingTypes.ThingModel
