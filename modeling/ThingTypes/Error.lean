import ThingTypes.Json.Text
import ThingTypes.Schema.Scalar
import ThingTypes.Text.Quoted

/-
  Why a generation run fails. Errors are values that name their cause; the wording is in
  `GenerationError.message` and the functions it calls.
-/

namespace ThingTypes

/-- What is wrong with a schema that cannot be read or resolved. -/
inductive SchemaFault where
  | notAnObject
  | keywordNotAnArray (keyword : String)
  | keywordNotAnObject (keyword : String)
  | keywordNotAString (keyword : String)
  | requiredNotStrings
  | itemsNotASchema
  | itemsMissing
  | enumWithoutValues
  | enumWithoutName
  | objectWithoutName
  | emptyClassName
  | noFreeClassName (candidate : String)
  | noFreeEnumName (candidate : String)
  | noFreeName (candidate : String)
  | valueOfOtherType (value : Json) (expected : ScalarKind)
  | recordNotAnObject
deriving Repr, Inhabited

namespace SchemaFault

def message : SchemaFault → String
  | notAnObject => "schema must be a JSON object"
  | keywordNotAnArray keyword => s!"'{keyword}' must be an array"
  | keywordNotAnObject keyword => s!"'{keyword}' must be an object"
  | keywordNotAString keyword => s!"'{keyword}' must be a string"
  | requiredNotStrings => "'required' must list strings"
  | itemsNotASchema => "'items' must be a schema object"
  | itemsMissing => "array schema without 'items'"
  | enumWithoutValues => "enum schema without values"
  | enumWithoutName => "enum schema needs a field name or title"
  | objectWithoutName => "object schema needs a field name or title"
  | emptyClassName => "name produces an empty class name"
  | noFreeClassName candidate => s!"no free class name for {candidate}"
  | noFreeEnumName candidate => s!"no free enum name for {candidate}"
  | noFreeName candidate => s!"no free name for {candidate}"
  | valueOfOtherType value expected =>
    s!"enum value {value.compact} is not of type {expected.typeName}"
  | recordNotAnObject => "object enum values must be objects"

end SchemaFault

/-- A schema construct that no type is generated for. -/
inductive ShapeFault where
  | severalTypes
  | alternativesOutsideObject (declared : String)
  | severalPatterns (count : Nat)
  | tupleItems
  | enumOnType (typeName : String)
  | notAClass (typeName : String)
  | enumAsClass
  | recordField (name : String)
  | recordValue (key : String)
deriving Repr, DecidableEq, Inhabited

namespace ShapeFault

def message : ShapeFault → String
  | severalTypes => "multiple types in 'type'"
  | alternativesOutsideObject declared => s!"'oneOf' on a schema of type '{declared}'"
  | severalPatterns count => s!"{count} patterns in 'patternProperties'"
  | tupleItems => "tuple-typed 'items'"
  | enumOnType typeName => s!"enum values on a '{typeName}' schema"
  | notAClass typeName => s!"a '{typeName}' schema where a class is required"
  | enumAsClass => "an enum schema where a class is required"
  | recordField name => s!"non-primitive field '{name}' in an object enum"
  | recordValue key => s!"non-primitive value of '{key}' in an object enum"

end ShapeFault

/-- What is wrong with a Thing Model. -/
inductive ModelFault where
  /-- The document does not have the form of a Thing Model. -/
  | malformed
  | unnamedFeature
  | categoryCollision (property : String)
deriving Repr, DecidableEq, Inhabited

/-- Why storage refuses a request. -/
inductive StorageFault where
  | notFound
  | alreadyExists
  | notADirectory
  | isADirectory
  | nameTooLong
  | permissionDenied
  /-- Any other refusal, in the words of the storage. -/
  | other (text : String)
deriving Repr, DecidableEq, Inhabited

namespace StorageFault

/-- Whether a request is refused because nothing is at its path. -/
def isAbsence : StorageFault → Bool
  | notFound | notADirectory | nameTooLong => true
  | _ => false

def message : StorageFault → String
  | notFound => "No such file or directory (os error 2)"
  | permissionDenied => "Permission denied (os error 13)"
  | alreadyExists => "File exists (os error 17)"
  | notADirectory => "Not a directory (os error 20)"
  | isADirectory => "Is a directory (os error 21)"
  | nameTooLong => "File name too long (os error 36)"
  | other text => text

end StorageFault

/-- Why a document cannot be loaded. -/
inductive LoadFault where
  | unknownDocument
  | network
  | notJson
  | storage (fault : StorageFault)
deriving Repr, DecidableEq, Inhabited

namespace LoadFault

def message : LoadFault → String
  | unknownDocument => "no such document"
  | network => "network loading is not supported; download the model first"
  | notJson => "invalid JSON: the text is not a JSON value"
  | storage fault => fault.message

end LoadFault

/-- Why a generation run fails. A run is all or nothing. -/
inductive GenerationError where
  | malformedReference (value : String)
  | unresolvedReference (reference document : String)
  | referenceDepthExceeded (path : String) (limit : Nat)
  | missingType (path : String)
  | unknownType (path declared : String)
  | malformedSchema (path : String) (fault : SchemaFault)
  | unsupportedShape (path : String) (fault : ShapeFault)
  | schemaTooDeep (path : String) (limit : Nat)
  | enumConflict (package name : String) (existing incoming : List String)
  | multipleExtends (model : String) (count : Nat)
  | invalidModel (location : String) (fault : ModelFault)
  | invalidPackage (package : String)
  | load (location : String) (fault : LoadFault)
  | storage (fault : StorageFault)
deriving Repr, Inhabited

namespace GenerationError

def message : GenerationError → String
  | malformedReference value =>
    s!"Malformed model reference: {Text.quoted value} (expected exactly one '#')"
  | unresolvedReference reference document =>
    s!"Model reference {Text.quoted reference} does not resolve in {document}"
  | referenceDepthExceeded path limit =>
    s!"Reference inlining exceeded {limit} passes at {path} (cyclic model references?)"
  | missingType path => s!"Schema at {path} has no declared type"
  | unknownType path declared =>
    s!"Schema at {path} declares unknown type {Text.quoted declared}"
  | malformedSchema path fault => s!"Malformed schema at {path}: {fault.message}"
  | unsupportedShape path fault => s!"Unsupported schema shape at {path}: {fault.message}"
  | schemaTooDeep path limit =>
    s!"Schema nesting at {path} exceeds the maximum depth of {limit}"
  | enumConflict package name existing incoming =>
    let old := ", ".intercalate existing
    let new := ", ".intercalate incoming
    s!"Enum conflict for {package}.{name}: existing values [{old}] differ from [{new}]"
  | multipleExtends model count =>
    s!"Thing Model {model} declares {count} 'tm:extends' links, at most one is supported"
  | invalidModel location .malformed => s!"Invalid Thing Model {location}"
  | invalidModel location .unnamedFeature =>
    s!"Invalid Thing Model {location}: sub-feature needs an instanceName or a title"
  | invalidModel location (.categoryCollision property) =>
    s!"Invalid Thing Model {location}: "
      ++ s!"property '{property}' collides with a category of the same name"
  | invalidPackage package => s!"Invalid package name: {package}"
  | load location fault => s!"Failed to load {location}: {fault.message}"
  | storage fault => s!"IO error: {fault.message}"

end GenerationError

end ThingTypes
