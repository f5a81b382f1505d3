import ThingTypes.Error
import ThingTypes.Schema.Reader
import ThingTypes.TypeGraph.Declaration

/-
  What an enum holds before it has a name and a place. Each value becomes a constant, named after
  the value; names that come twice are numbered. The values of an enum are scalars of one type, or
  records of named scalar fields.
-/

namespace ThingTypes

structure EnumContent where
  backing : EnumBacking
  fields : List EnumField := []
  constants : List EnumConstant
  fingerprint : Fingerprint
deriving Inhabited

namespace EnumContent

/-- The name itself, or the first of `name_2`, `name_3`, ... that is not among those used. -/
def unusedName (used : List String) (name : String) : String :=
  if !used.contains name then name
  else
    let numbered := (List.range (used.length + 1)).map fun i => name ++ "_" ++ toString (i + 2)
    (numbered.find? (!used.contains ·)).getD name

/-- The names in order, each changed where it is among those before it. -/
def distinctNames (used : List String) : List String → List String
  | [] => []
  | name :: names =>
    let unused := unusedName used name
    unused :: distinctNames (unused :: used) names

/-- A constant for each value, named after its label. -/
def constantsFor (labels : List String) (values : List Json) : List EnumConstant :=
  List.zipWith EnumConstant.mk (distinctNames [] labels) values

/-- What decides whether two enums are the same: backing, fields and values. -/
def description (backing : EnumBacking) (fields : List EnumField) (values : List Json) : Json :=
  .object [
    ("backing", .string backing.typeName),
    ("fields", .array (fields.map fun f => Json.strings [f.jsonName, f.kind.typeName])),
    ("values", .array values)]

/-- A value that a scalar enum may have. -/
def checkScalar (kind : ScalarKind) (path : String) (value : Json) : Except GenerationError Json :=
  if (ScalarKind.ofJson? value).any kind.accepts then .ok value
  else .error (.malformedSchema path (.valueOfOtherType value kind))

/-- An enum of scalars. `null` among the values makes no constant. -/
def ofScalars (digest : Digest) (kind : ScalarKind) (values : List Json) (path : String) :
    Except GenerationError EnumContent := do
  let present ← (values.filter (!·.isNull)).mapM (checkScalar kind path)
  let labels := present.map fun value => Identifier.constantName value.asText
  return {
    backing := .scalar kind
    constants := constantsFor labels present
    fingerprint := .ofJson digest (description (.scalar kind) [] values) }

/-- The field that a property declares. -/
def declaredField (path : String) (property : String × SchemaNode) :
    Except GenerationError EnumField :=
  match property.2.scalarKind? with
  | some kind => .ok ⟨property.1, Identifier.propertyName property.1, kind⟩
  | none => .error (.unsupportedShape path (.recordField property.1))

/-- The members of a value that must be a record. -/
def recordMembers (path : String) (value : Json) : Except GenerationError (List (String × Json)) :=
  match value.members? with
  | some members => .ok members
  | none => .error (.malformedSchema path .recordNotAnObject)

/-- Adds a field for each key that has none yet, of the type of its first value. -/
def inferFields (path : String) (fields : List EnumField) :
    List (String × Json) → Except GenerationError (List EnumField)
  | [] => .ok fields
  | (key, value) :: rest =>
    if value.isNull || fields.any (·.jsonName = key) then inferFields path fields rest
    else match ScalarKind.ofJson? value with
      | some kind =>
        inferFields path (fields ++ [⟨key, Identifier.propertyName key, kind⟩]) rest
      | none => .error (.unsupportedShape path (.recordValue key))

/-- The text that names a record: its name, its title, or its first text. -/
def recordLabel? (members : List (String × Json)) : Option String :=
  ((Entries.get? "name" members).bind Json.string?)
    |>.or ((Entries.get? "title" members).bind Json.string?)
    |>.or (members.findSome? (·.2.string?))

/-- The name of the constant for a record, by its place where nothing names it. -/
def recordName (index : Nat) (members : List (String × Json)) : String :=
  match recordLabel? members with
  | some label => Identifier.constantName label
  | none => Identifier.constantMarker ++ toString index

/-- An enum of records. Its fields are the declared properties, or what the records have if none
are declared. -/
def ofRecords (digest : Digest) (properties : List (String × SchemaNode)) (values : List Json)
    (path : String) : Except GenerationError EnumContent := do
  let declared ← properties.mapM (declaredField path)
  let records ← values.mapM (recordMembers path)
  let fields ← if declared.isEmpty then inferFields path [] records.flatten else pure declared
  return {
    backing := .object
    fields
    constants := constantsFor (records.mapIdx recordName) values
    fingerprint := .ofJson digest (description .object fields values) }

end EnumContent

end ThingTypes
