import ThingTypes.Schema.Node
import ThingTypes.Error

/-
  Reading schema nodes from JSON. Reading is strict: whatever no type can be generated for is
  refused, so every node that comes out can be resolved by its kind alone. A schema-valued keyword
  is looked up among the members and read on the way (`schemaUnder`, `entriesUnder`,
  `alternativesUnder`), which keeps the recursion on the document.
-/

namespace ThingTypes

/-- The key of an embedded reference. -/
def modelRefKey : String := "tm:ref"

/-- The key of the category of a property. -/
def categoryKey : String := "ditto:category"

/-- The text of a value that should be a string: the string, or the JSON text of anything else. -/
def Json.asText : Json → String
  | .string s => s
  | other => other.compact

namespace SchemaNode

abbrev Read (α : Type) := String → Except GenerationError α

def malformed {α : Type} (path : String) (fault : SchemaFault) : Except GenerationError α :=
  .error (.malformedSchema path fault)

def unsupported {α : Type} (path : String) (fault : ShapeFault) : Except GenerationError α :=
  .error (.unsupportedShape path fault)

/-- An optional string; `null` counts as absent. -/
def textField (members : List (String × Json)) (key : String) : Read (Option String) := fun path =>
  match Entries.get? key members with
  | none | some .null => .ok none
  | some (.string s) => .ok (some s)
  | some _ => malformed path (.keywordNotAString key)

/-- The declared type. -/
def declaredType (members : List (String × Json)) : Read String := fun path =>
  match Entries.get? "type" members with
  | none => .error (.missingType path)
  | some (.string declared) => .ok declared
  | some (.array _) => unsupported path .severalTypes
  | some other => .error (.unknownType path other.compact)

def requiredNames (members : List (String × Json)) : Read (List String) := fun path =>
  match Entries.get? "required" members with
  | none => .ok []
  | some (.array names) =>
    match names.mapM Json.string? with
    | some names => .ok names
    | none => malformed path .requiredNotStrings
  | some _ => malformed path (.keywordNotAnArray "required")

/-- How the schema-valued keywords of an object read, each `none` where the member is missing or
has no such reading. -/
structure Keywords where
  properties? : Option (Read (List (String × SchemaNode)))
  oneOf? : Option (Read (List SchemaNode))
  patterns? : Option (Read (List (String × SchemaNode)))
  additional? : Option (Read SchemaNode)
  items? : Option (Read SchemaNode)

def readProperties (members : List (String × Json)) (keywords : Keywords) :
    Read (List (String × SchemaNode)) := fun path =>
  match Entries.get? "properties" members, keywords.properties? with
  | none, _ => .ok []
  | some _, some read => read (path ++ "/properties")
  | some _, none => malformed path (.keywordNotAnObject "properties")

def readAlternatives (members : List (String × Json)) (keywords : Keywords) :
    Read (Option (List SchemaNode)) := fun path =>
  match Entries.get? "oneOf" members, keywords.oneOf? with
  | none, _ => .ok none
  | some _, some read => (read (path ++ "/oneOf")).map some
  | some _, none => malformed path (.keywordNotAnArray "oneOf")

def readAdditional (keywords : Keywords) : Read (Option (MapValues SchemaNode)) := fun path =>
  match keywords.additional? with
  | some read =>
    (read (path ++ "/additionalProperties")).map fun schema => some ⟨.additional, schema⟩
  | none => .ok none

/-- The value schema of a map. A single pattern wins over `additionalProperties`. -/
def readMapValues (members : List (String × Json)) (keywords : Keywords) :
    Read (Option (MapValues SchemaNode)) := fun path =>
  match Entries.get? "patternProperties" members, keywords.patterns? with
  | none, _ => readAdditional keywords path
  | some (.object patterns), some read =>
    if 1 < patterns.length then unsupported path (.severalPatterns patterns.length)
    else do
      match ← read (path ++ "/patternProperties") with
      | (text, schema) :: _ => return some ⟨.pattern text, schema⟩
      | [] => readAdditional keywords path
  | some _, _ => malformed path (.keywordNotAnObject "patternProperties")

def readObject (members : List (String × Json)) (keywords : Keywords) : Read ObjectSchema :=
  fun path => do
    let properties ← readProperties members keywords path
    let required ← requiredNames members path
    let oneOf? ← readAlternatives members keywords path
    let mapValues? ← readMapValues members keywords path
    let modelRef? := (Entries.get? modelRefKey members).map Json.asText
    return { properties, required, oneOf?, mapValues?, modelRef? }

def readItems (members : List (String × Json)) (keywords : Keywords) : Read SchemaNode :=
  fun path =>
    match Entries.get? "items" members, keywords.items? with
    | some (.object _), some read => read (path ++ "/items")
    | some (.array _), _ => unsupported path .tupleItems
    | some _, _ => malformed path .itemsNotASchema
    | none, _ => malformed path .itemsMissing

def readKind (members : List (String × Json)) (keywords : Keywords) :
    Read (SchemaKind SchemaNode) := fun path => do
  let declared ← declaredType members path
  if declared != "object" && (Entries.get? "oneOf" members).isSome then
    unsupported path (.alternativesOutsideObject declared)
  else match declared with
    | "boolean" => return .scalar .boolean
    | "integer" => return .scalar .integer
    | "number" => return .scalar .number
    | "string" => return .scalar .string
    | "null" => return .null
    | "object" => return .object (← readObject members keywords path)
    | "array" => return .array (← readItems members keywords path)
    | other => .error (.unknownType path other)

def readInfo (members : List (String × Json)) : Read SchemaInfo := fun path => do
  let enumeration? ← match Entries.get? "enum" members with
    | none => pure none
    | some (.array values) => pure (some values)
    | some _ => malformed path (.keywordNotAnArray "enum")
  let title? ← textField members "title" path
  let description? ← textField members "description" path
  let format? ← textField members "format" path
  let deprecated := ((Entries.get? "deprecated" members).bind Json.bool?).getD false
  let category? ← textField members categoryKey path
  return { title?, description?, format?, deprecated, category?, enumeration? }

/-- A node from the members of its schema. The kind is read before what describes it. -/
def ofMembers (members : List (String × Json)) (keywords : Keywords) : Read SchemaNode :=
  fun path => do
    let kind ← readKind members keywords path
    let info ← readInfo members path
    return mk info kind

/-- Reads where a reading is given, and refuses otherwise: a schema is an object. -/
def readOrRefuse (reading? : Option (Read SchemaNode)) : Read SchemaNode := fun path =>
  match reading? with
  | some read => read path
  | none => malformed path .notAnObject

mutual

/-- How a value reads as a schema, if it is an object. -/
def reading? : Json → Option (Read SchemaNode)
  | .object members => some <|
    ofMembers members
      { properties? := entriesUnder "properties" members
        oneOf? := alternativesUnder "oneOf" members
        patterns? := entriesUnder "patternProperties" members
        additional? := schemaUnder "additionalProperties" members
        items? := schemaUnder "items" members }
  | _ => none

/-- How the value under a key reads as a schema. -/
def schemaUnder (key : String) : List (String × Json) → Option (Read SchemaNode)
  | [] => none
  | (name, j) :: rest => if name = key then reading? j else schemaUnder key rest

/-- Reads a node per member, each one path segment deeper. -/
def readEntries : List (String × Json) → Read (List (String × SchemaNode))
  | [], _ => .ok []
  | (name, j) :: rest, path => do
    let node ← readOrRefuse (reading? j) (path ++ "/" ++ name)
    let nodes ← readEntries rest path
    return (name, node) :: nodes

/-- How the members of a value read as schemas, if it is an object. -/
def entriesReading? : Json → Option (Read (List (String × SchemaNode)))
  | .object members => some fun path => readEntries members path
  | _ => none

def entriesUnder (key : String) : List (String × Json) → Option (Read (List (String × SchemaNode)))
  | [] => none
  | (name, j) :: rest => if name = key then entriesReading? j else entriesUnder key rest

/-- Reads a node per element, numbered from `index`. -/
def readItemsFrom : List Json → Nat → Read (List SchemaNode)
  | [], _, _ => .ok []
  | j :: rest, index, path => do
    let node ← readOrRefuse (reading? j) (path ++ "/" ++ toString index)
    let nodes ← readItemsFrom rest (index + 1) path
    return node :: nodes

/-- How the elements of a value read as schemas, if it is an array. -/
def alternativesReading? : Json → Option (Read (List SchemaNode))
  | .array items => some fun path => readItemsFrom items 0 path
  | _ => none

def alternativesUnder (key : String) : List (String × Json) → Option (Read (List SchemaNode))
  | [] => none
  | (name, j) :: rest => if name = key then alternativesReading? j else alternativesUnder key rest

end

/-- Reads a node. The path says where it stands and appears in errors only. -/
def ofJson (j : Json) : Read SchemaNode :=
  readOrRefuse (reading? j)

end SchemaNode

end ThingTypes
