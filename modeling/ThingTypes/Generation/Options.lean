import ThingTypes.Json.Record
import ThingTypes.Reference.Inlining
import ThingTypes.Resolution.Basic

/-
  The options of a generation run, and how they are read from JSON.
-/

namespace ThingTypes

structure GenerationOptions where
  enumPlacement : EnumPlacement := .inline
  classNaming : Identifier.ClassNaming := .alwaysCompound
  /-- Whether data classes get builders. -/
  dslBuilders : Bool := false
  /-- Whether builders take suspending blocks. -/
  suspendBuilders : Bool := false
  /-- Whether a reference that resolves to nothing is an error. -/
  strictReferences : Bool := false
  /-- The limit on passes of inlining and on chains of base models. -/
  maxReferenceDepth : Nat := 16
  /-- The limit on the nesting of schemas. -/
  maxSchemaDepth : Nat := 64
deriving Repr, DecidableEq, Inhabited

/-- The placements by name. -/
def EnumPlacement.names : List (String × EnumPlacement) :=
  [("inline", .inline), ("separate", .separate)]

/-- The naming policies by name. -/
def Identifier.ClassNaming.names : List (String × Identifier.ClassNaming) :=
  [("always-compound", .alwaysCompound), ("original-then-compound", .compoundWhenTaken)]

def EnumPlacement.name : EnumPlacement → String
  | inline => "inline"
  | separate => "separate"

def Identifier.ClassNaming.name : Identifier.ClassNaming → String
  | alwaysCompound => "always-compound"
  | compoundWhenTaken => "original-then-compound"

namespace GenerationOptions

def fieldNames : List String :=
  ["enum_placement", "class_naming", "dsl_builders", "suspend_builders", "strict_references",
    "max_reference_depth", "max_schema_depth"]

/-- Reads options. Missing ones take their defaults. -/
def ofJson? (j : Json) : Option GenerationOptions := do
  let fields ← Json.record? fieldNames j
  let defaults : GenerationOptions := {}
  let enumPlacement ←
    Json.fieldD? fields 0 defaults.enumPlacement (Json.choice? EnumPlacement.names)
  let classNaming ←
    Json.fieldD? fields 1 defaults.classNaming (Json.choice? Identifier.ClassNaming.names)
  let dslBuilders ← Json.fieldD? fields 2 defaults.dslBuilders Json.bool?
  let suspendBuilders ← Json.fieldD? fields 3 defaults.suspendBuilders Json.bool?
  let strictReferences ← Json.fieldD? fields 4 defaults.strictReferences Json.bool?
  let maxReferenceDepth ← Json.fieldD? fields 5 defaults.maxReferenceDepth Json.size?
  let maxSchemaDepth ← Json.fieldD? fields 6 defaults.maxSchemaDepth Json.size?
  return {
    enumPlacement, classNaming, dslBuilders, suspendBuilders, strictReferences, maxReferenceDepth,
    maxSchemaDepth }

def inliningSettings (o : GenerationOptions) : InliningSettings where
  strict := o.strictReferences
  maxPasses := o.maxReferenceDepth

def resolutionSettings (o : GenerationOptions) (wraps : WrapPolicy := .declaredValues)
    (digest : Digest := .sha256) : ResolutionSettings where
  naming := o.classNaming
  placement := o.enumPlacement
  maxDepth := o.maxSchemaDepth
  wraps
  digest

end GenerationOptions

end ThingTypes
