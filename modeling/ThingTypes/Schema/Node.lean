import ThingTypes.Schema.Scalar
import ThingTypes.Digest.Fingerprint

/-
  Schema nodes: the part of JSON Schema that Thing Models use, as a tree. A node is exactly one of
  scalar, null, object and array. `SchemaNode.skeleton` is what decides the shape of the
  generated type, as a JSON value; its digest is the fingerprint of the node.
-/

namespace ThingTypes

/-- What a schema says about its values besides their type. -/
structure SchemaInfo where
  title? : Option String := none
  description? : Option String := none
  format? : Option String := none
  deprecated : Bool := false
  category? : Option String := none
  /-- The declared values, empty or not. -/
  enumeration? : Option (List Json) := none
deriving Repr, Inhabited

/-- Which keyword makes an object a map. -/
inductive MapKeyword where
  | pattern (text : String)
  | additional
deriving Repr, DecidableEq, Inhabited

def MapKeyword.name : MapKeyword → String
  | pattern _ => "patternProperties"
  | additional => "additionalProperties"

/-- The values of a map-shaped object. -/
structure MapValues (ν : Type) where
  keyword : MapKeyword
  schema : ν

/-- The members of an object schema over its child nodes. -/
structure ObjectShape (ν : Type) where
  /-- In document order. -/
  properties : List (String × ν) := []
  required : List String := []
  oneOf? : Option (List ν) := none
  mapValues? : Option (MapValues ν) := none
  /-- A reference that was not inlined. -/
  modelRef? : Option String := none

inductive SchemaKind (ν : Type) where
  | scalar (kind : ScalarKind)
  | null
  | object (shape : ObjectShape ν)
  | array (items : ν)

inductive SchemaNode where
  | mk (info : SchemaInfo) (kind : SchemaKind SchemaNode)

abbrev ObjectSchema := ObjectShape SchemaNode

def ObjectShape.isRequired {ν : Type} (o : ObjectShape ν) (name : String) : Bool :=
  o.required.contains name

/-- The only property, if there is exactly one. -/
def ObjectShape.soleProperty? {ν : Type} (o : ObjectShape ν) : Option (String × ν) :=
  match o.properties with
  | [property] => some property
  | _ => none

namespace SchemaNode

instance : Inhabited SchemaNode := ⟨.mk {} .null⟩

def info : SchemaNode → SchemaInfo
  | mk info _ => info

def kind : SchemaNode → SchemaKind SchemaNode
  | mk _ kind => kind

/-- An object node with properties that have been read already. -/
def ofProperties (properties : List (String × SchemaNode)) (required : List String)
    (title? : Option String := none) : SchemaNode :=
  mk { title? } (.object { properties, required })

def scalarKind? (node : SchemaNode) : Option ScalarKind :=
  match node.kind with
  | .scalar kind => some kind
  | _ => none

def object? (node : SchemaNode) : Option ObjectSchema :=
  match node.kind with
  | .object shape => some shape
  | _ => none

/-- The declared values, if there are any. -/
def enumValues? (node : SchemaNode) : Option (List Json) :=
  node.info.enumeration?.filter (!·.isEmpty)

def typeName (node : SchemaNode) : String :=
  match node.kind with
  | .scalar kind => kind.typeName
  | .null => "null"
  | .object _ => "object"
  | .array _ => "array"

/-- The members that every skeleton starts with. -/
def commonSkeleton (node : SchemaNode) : List (String × Json) :=
  [("type", .string node.typeName)]
    ++ (node.info.format?.map fun format => ("format", Json.string format)).toList
    ++ (node.info.enumeration?.map fun values => ("enum", Json.array values)).toList

mutual

/-- Everything that affects the shape of the generated type, and nothing descriptive. -/
def skeleton : SchemaNode → Json
  | mk info (.object ⟨properties, required, oneOf?, mapValues?, modelRef?⟩) =>
    .object <|
      commonSkeleton (mk info (.object ⟨properties, required, oneOf?, mapValues?, modelRef?⟩))
        ++ [("properties", .object (propertySkeletons properties))]
        ++ (if required.isEmpty then [] else [("required", Json.strings required)])
        ++ alternativesSkeleton oneOf?
        ++ valuesSkeleton mapValues?
  | mk info (.array items) =>
    .object (commonSkeleton (mk info (.array items)) ++ [("items", items.skeleton)])
  | mk info (.scalar kind) => .object (commonSkeleton (mk info (.scalar kind)))
  | mk info .null => .object (commonSkeleton (mk info .null))

def propertySkeletons : List (String × SchemaNode) → List (String × Json)
  | [] => []
  | (name, node) :: rest => (name, node.skeleton) :: propertySkeletons rest

def skeletons : List SchemaNode → List Json
  | [] => []
  | node :: rest => node.skeleton :: skeletons rest

def alternativesSkeleton : Option (List SchemaNode) → List (String × Json)
  | none => []
  | some alternatives => [("oneOf", .array (skeletons alternatives))]

def valuesSkeleton : Option (MapValues SchemaNode) → List (String × Json)
  | none => []
  | some ⟨keyword, schema⟩ => [(keyword.name, schema.skeleton)]

end

def fingerprint (digest : Digest) (node : SchemaNode) : Fingerprint :=
  Fingerprint.ofJson digest node.skeleton

end SchemaNode

end ThingTypes
