import ThingTypes.Schema.Scalar
import ThingTypes.TypeGraph.TypeName

/-
  References to types: what a schema resolves to. `signature` writes a reference out, so that
  declarations can be told apart by the types of their members.
-/

namespace ThingTypes

inductive TypeRef where
  | primitive (kind : ScalarKind)
  | classType (name : TypeName)
  | enumType (name : TypeName)
  | aliasType (name : TypeName)
  | list (item : TypeRef)
  /-- A map from strings. -/
  | map (item : TypeRef)
  /-- The type without a value. -/
  | unit
deriving Repr, DecidableEq, Inhabited

namespace TypeRef

def signature : TypeRef → String
  | primitive kind => kind.typeName
  | classType name => "class:" ++ name.display
  | enumType name => "enum:" ++ name.display
  | aliasType name => "alias:" ++ name.display
  | list item => "list<" ++ item.signature ++ ">"
  | map item => "map<" ++ item.signature ++ ">"
  | unit => "unit"

/-- The generated type that a reference mentions, under any lists and maps. -/
def referencedName? : TypeRef → Option TypeName
  | classType name | enumType name | aliasType name => some name
  | list item | map item => item.referencedName?
  | primitive _ | unit => none

end TypeRef

end ThingTypes
