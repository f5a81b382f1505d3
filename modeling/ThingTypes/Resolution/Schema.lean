import ThingTypes.Resolution.Basic

/-
  Resolving schemas to types. Scalars resolve to primitives or enums, arrays to lists, objects to
  enums, maps or classes, and the null schema to the type without a value. The recursion is on the
  schema; `classOf` says how a class comes from an object whose parts can be resolved.
-/

namespace ThingTypes

namespace Resolution

/-- The only property of an object, if it is a scalar without declared values. -/
def soleScalar? (node : SchemaNode) : Option (String × ScalarKind) := do
  let shape ← node.object?
  if node.enumValues?.isSome || shape.oneOf?.isSome || shape.mapValues?.isSome then none
  else
    let (name, schema) ← shape.soleProperty?
    if schema.enumValues?.isSome then none
    else (schema.scalarKind?).map fun kind => (name, kind)

/-- The only properties of alternatives that are all of that kind. Such alternatives become
aliases. -/
def soleScalars? (alternatives : List SchemaNode) : Option (List (String × ScalarKind)) :=
  if alternatives.isEmpty then none else alternatives.mapM soleScalar?

/-- The type of a scalar schema. -/
def scalarType (s : ResolutionSettings) (hint? : Option String) (info : SchemaInfo)
    (kind : ScalarKind) (site : Site) : ResolveM TypeRef := do
  let node := SchemaNode.mk info (.scalar kind)
  match node.enumValues? with
  | some values =>
    if s.wraps node kind then
      let content ← liftExcept (EnumContent.ofScalars s.digest kind values site.path)
      return .enumType (← declareEnum s hint? info content site s.placement)
    else return .primitive kind
  | none => return .primitive kind

/-- The name of an alternative of a sealed class: its title, its only property, or its place. -/
def variantName (sealedClass : TypeName) (index : Nat) (alternative : SchemaNode) : String :=
  (alternative.info.title?.or
    ((alternative.object?.bind ObjectShape.soleProperty?).map Prod.fst)).getD
    (sealedClass.name ++ "Option" ++ toString (index + 1))

/-- Whether an alternative becomes a class. -/
def isClassShaped (node : SchemaNode) : Bool :=
  node.object?.isSome && node.enumValues?.isNone

/-- Makes a resolved alternative part of its sealed class: a class gets the parent, and anything
else an alias. -/
def joinVariant (s : ResolutionSettings) (sealedClass : TypeName) (name : String) (type : TypeRef)
    (site : Site) : ResolveM TypeRef := do
  match type with
  | .classType variant =>
    modifyCatalog (·.modifyClass variant.key (·.addSealedParent sealedClass))
    return .classType variant
  | other => return .aliasType (← declareAlias s name other sealedClass site)

/-- The alternatives of a sealed class as aliases, numbered from `index`. -/
def aliasVariants (s : ResolutionSettings) (sealedClass : TypeName) (site : Site) :
    Nat → List (String × ScalarKind) → ResolveM (List TypeRef)
  | _, [] => return []
  | index, (name, kind) :: rest => do
    let type ← declareAlias s name (.primitive kind) sealedClass (site.child (toString index))
    let types ← aliasVariants s sealedClass site (index + 1) rest
    return .aliasType type :: types

/-- How the parts of an object resolve. -/
structure ObjectParts where
  fields : Site → ResolveM (List FieldDecl)
  variants : TypeName → Site → ResolveM (List TypeRef)
  mapValue : Option String → Site → ResolveM TypeRef

/-- The class of an object schema: sealed over alternatives, a wrapper around map values, or a
class with fields. -/
def classOf (s : ResolutionSettings) (name : String) (info : SchemaInfo) (shape : ObjectSchema)
    (parts : ObjectParts) (site : Site) : ResolveM TypeName :=
  let node := SchemaNode.mk info (.object shape)
  if node.enumValues?.isSome then unsupported site .enumAsClass
  else
    match shape.oneOf?, shape.mapValues? with
    | some alternatives, _ =>
      declareClass s name node .sealed site fun type => do
        let inner := (site.inside type).child "oneOf"
        let variants ← match soleScalars? alternatives with
          | some members => aliasVariants s type inner 0 members
          | none => parts.variants type inner
        return fun c => { c with variants }
    | none, some values =>
      declareClass s name node .mapWrapper site fun type => do
        let inner := (site.inside type).child values.keyword.name
        let value ← parts.mapValue (some (type.name ++ "Item")) inner
        return fun c => { c with mapValue? := some value }
    | none, none =>
      declareClass s name node .plain site fun type => do
        let fields ← parts.fields (site.inside type)
        return (·.withFields fields)

/-- The type of an object schema: an enum of records, a map, or a class. -/
def objectType (s : ResolutionSettings) (hint? : Option String) (info : SchemaInfo)
    (shape : ObjectSchema) (parts : ObjectParts) (site : Site) : ResolveM TypeRef := do
  let node := SchemaNode.mk info (.object shape)
  match node.enumValues? with
  | some values =>
    let content ← liftExcept (EnumContent.ofRecords s.digest shape.properties values site.path)
    return .enumType (← declareEnum s hint? info content site s.placement)
  | none =>
    match shape.oneOf?, shape.mapValues? with
    | none, some values =>
      return .map (← parts.mapValue (itemHint? hint? values.schema.info)
        (site.child values.keyword.name))
    | _, _ =>
      match hintedName? hint? info.title? with
      | none => malformed site .objectWithoutName
      | some name => return .classType (← classOf s name info shape parts site)

mutual

/-- The type of a schema. -/
def typeAt (s : ResolutionSettings) (hint? : Option String) : SchemaNode → Site → ResolveM TypeRef
  | .mk info (.scalar kind), site => nested s site (scalarType s hint? info kind site)
  | .mk _ .null, site => nested s site (return .unit)
  | .mk _ (.array items), site => nested s site do
    return .list (← typeAt s (itemHint? hint? items.info) items (site.child "items"))
  | .mk info (.object ⟨properties, required, oneOf?, mapValues?, modelRef?⟩), site =>
    nested s site <|
      objectType s hint? info ⟨properties, required, oneOf?, mapValues?, modelRef?⟩
        { fields := fieldsAt s required properties
          variants := alternativesAt s oneOf?
          mapValue := mapValueAt s mapValues? } site

/-- The class of an object schema. -/
def classAt (s : ResolutionSettings) (name : String) : SchemaNode → Site → ResolveM TypeName
  | .mk info (.object ⟨properties, required, oneOf?, mapValues?, modelRef?⟩), site =>
    nested s site <|
      classOf s name info ⟨properties, required, oneOf?, mapValues?, modelRef?⟩
        { fields := fieldsAt s required properties
          variants := alternativesAt s oneOf?
          mapValue := mapValueAt s mapValues? } site
  | .mk info (.scalar kind), site =>
    nested s site (unsupported site (.notAClass (SchemaNode.mk info (.scalar kind)).typeName))
  | .mk info .null, site =>
    nested s site (unsupported site (.notAClass (SchemaNode.mk info .null).typeName))
  | .mk info (.array items), site =>
    nested s site (unsupported site (.notAClass (SchemaNode.mk info (.array items)).typeName))

/-- The fields for the properties of an object. -/
def fieldsAt (s : ResolutionSettings) (required : List String) :
    List (String × SchemaNode) → Site → ResolveM (List FieldDecl)
  | [], _ => return []
  | (name, node) :: rest, site => do
    let type ← typeAt s (some name) node (site.child name)
    let fields ← fieldsAt s required rest site
    return .ofSchema name type (required.contains name) node.info :: fields

/-- The alternatives of a sealed class, numbered from `index`. -/
def variantsFrom (s : ResolutionSettings) (sealedClass : TypeName) :
    List SchemaNode → Nat → Site → ResolveM (List TypeRef)
  | [], _, _ => return []
  | node :: rest, index, site => do
    let name := variantName sealedClass index node
    let inner := site.child (toString index)
    let type ← if isClassShaped node then TypeRef.classType <$> classAt s name node inner
      else typeAt s (some name) node inner
    let variant ← joinVariant s sealedClass name type inner
    let variants ← variantsFrom s sealedClass rest (index + 1) site
    return variant :: variants

def alternativesAt (s : ResolutionSettings) :
    Option (List SchemaNode) → TypeName → Site → ResolveM (List TypeRef)
  | none, _, _ => return []
  | some alternatives, sealedClass, site => variantsFrom s sealedClass alternatives 0 site

/-- The type of the values of a map. -/
def mapValueAt (s : ResolutionSettings) :
    Option (MapValues SchemaNode) → Option String → Site → ResolveM TypeRef
  | none, _, _ => return .unit
  | some ⟨_, schema⟩, hint?, site => typeAt s hint? schema site

end

/-- Resolves a schema that is not the schema of a field. Its title names what it declares. -/
def resolve (s : ResolutionSettings) (node : SchemaNode) (package : String)
    (context : NamingContext) : ResolveM TypeRef :=
  let title? := node.info.title?
  typeAt s title? node { package, context, path := title?.getD "#" }

/-- Resolves the schema of a field. The field names what it declares. -/
def resolveField (s : ResolutionSettings) (field : String) (node : SchemaNode) (package : String)
    (context : NamingContext) : ResolveM TypeRef :=
  typeAt s (some field) node { package, context, path := field }

/-- Resolves an object schema to a class. -/
def resolveClass (s : ResolutionSettings) (name : String) (node : SchemaNode) (package : String)
    (context : NamingContext) : ResolveM TypeName :=
  classAt s name node { package, context, path := name }

/-- Resolves a schema with declared values to a top-level enum, whatever the settings say. -/
def resolveSeparateEnum (s : ResolutionSettings) (name : String) (node : SchemaNode)
    (package : String) (context : NamingContext) : ResolveM TypeName := do
  let site : Site := { package, context, path := name }
  match node.enumValues? with
  | none => malformed site .enumWithoutValues
  | some values =>
    let content ← match node.kind with
      | .object shape => liftExcept (EnumContent.ofRecords s.digest shape.properties values name)
      | .scalar kind => liftExcept (EnumContent.ofScalars s.digest kind values name)
      | _ => unsupported site (.enumOnType node.typeName)
    declareEnum s (some name) node.info content site .separate

end Resolution

end ThingTypes
