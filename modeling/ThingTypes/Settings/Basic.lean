import ThingTypes.Generation.Options
import ThingTypes.Settings.Toml
import ThingTypes.Storage.Path

/-
  The settings of the program: the options of a run, and where its output goes. They are read from
  layered values or from JSON, and written as a settings file.
-/

namespace ThingTypes

-- Powers are those of the core library, whatever is imported besides.
attribute [local instance (high)] instPowNat

structure OutputSettings where
  /-- The directory that sources are written below. -/
  directory : String := "generated"
  /-- The package of the types of the Thing. -/
  package? : Option String := none
deriving Repr, DecidableEq, Inhabited

structure Settings where
  generation : GenerationOptions := {}
  output : OutputSettings := {}
deriving Repr, DecidableEq, Inhabited

/-- Why settings cannot be loaded. -/
inductive SettingsFault where
  | missingFile (path : String)
  | unknownFormat (path : String)
  | unreadable (path : String) (fault : StorageFault)
  | malformed (path : String)
  | wrongType (key : String)
deriving Repr, DecidableEq, Inhabited

def SettingsFault.message : SettingsFault → String
  | missingFile path => s!"configuration file \"{path}\" not found"
  | unknownFormat path => s!"configuration file \"{path}\" is not of a known format"
  | unreadable path fault => s!"configuration file \"{path}\" cannot be read: {fault.message}"
  | malformed path => s!"configuration file \"{path}\" is malformed"
  | wrongType key => s!"invalid type for key {Text.quoted key}"

namespace Settings

/-- A setting under a key, converted, or its default where the key is missing. -/
def setting {α : Type} (entries : List (String × SettingsValue)) (key : String) (default : α)
    (convert : SettingsValue → Option α) : Except SettingsFault α :=
  match Entries.get? key entries with
  | none => .ok default
  | some value =>
    match convert value with
    | some a => .ok a
    | none => .error (.wrongType key)

def generationOf (entries : List (String × SettingsValue)) :
    Except SettingsFault GenerationOptions := do
  let defaults : GenerationOptions := {}
  let enumPlacement ← setting entries "enum_placement" defaults.enumPlacement
    (SettingsValue.toChoice? EnumPlacement.names)
  let classNaming ← setting entries "class_naming" defaults.classNaming
    (SettingsValue.toChoice? Identifier.ClassNaming.names)
  let dslBuilders ← setting entries "dsl_builders" defaults.dslBuilders SettingsValue.toBool?
  let suspendBuilders ←
    setting entries "suspend_builders" defaults.suspendBuilders SettingsValue.toBool?
  let strictReferences ←
    setting entries "strict_references" defaults.strictReferences SettingsValue.toBool?
  let maxReferenceDepth ←
    setting entries "max_reference_depth" defaults.maxReferenceDepth SettingsValue.toSize?
  let maxSchemaDepth ←
    setting entries "max_schema_depth" defaults.maxSchemaDepth SettingsValue.toSize?
  return {
    enumPlacement, classNaming, dslBuilders, suspendBuilders, strictReferences, maxReferenceDepth,
    maxSchemaDepth }

/-- The keys of the output settings, in their order. -/
def outputKeys : List String := ["directory", "package"]

def outputOf (entries : List (String × SettingsValue)) : Except SettingsFault OutputSettings := do
  let defaults : OutputSettings := {}
  let directory ← setting entries "directory" defaults.directory SettingsValue.toText?
  let package? ← setting entries "package" none (SettingsValue.toOption? SettingsValue.toText?)
  return { directory, package? }

/-- Settings from layered values. Unknown keys are ignored. -/
def ofEntries (entries : List (String × SettingsValue)) : Except SettingsFault Settings := do
  let generation ←
    setting entries "generation" [] (SettingsValue.toGroup? GenerationOptions.fieldNames)
  let output ← setting entries "output" [] (SettingsValue.toGroup? outputKeys)
  return { generation := ← generationOf generation, output := ← outputOf output }

def outputOfJson? (j : Json) : Option OutputSettings := do
  let fields ← Json.record? outputKeys j
  let defaults : OutputSettings := {}
  let directory ← Json.fieldD? fields 0 defaults.directory Json.string?
  let package? ← Json.fieldD? fields 1 none (Json.nullable? Json.string?)
  return { directory, package? }

/-- Reads settings from JSON. Missing ones take their defaults. -/
def ofJson? (j : Json) : Option Settings := do
  let fields ← Json.record? ["generation", "output"] j
  let generation ← Json.fieldD? fields 0 {} GenerationOptions.ofJson?
  let output ← Json.fieldD? fields 1 {} outputOfJson?
  return { generation, output }

/-- Whether a number of the settings can be written to a file. -/
def isWritable (n : Nat) : Bool :=
  n < 2 ^ (63 : Nat)

def boolText (b : Bool) : String :=
  if b then "true" else "false"

/-- The text of a settings file. -/
def toToml (s : Settings) : Except StorageFault String :=
  let g := s.generation
  if isWritable g.maxReferenceDepth && isWritable g.maxSchemaDepth then
    .ok <| String.join <| [
      Toml.header "generation",
      Toml.entry "enum_placement" (Toml.basicString g.enumPlacement.name),
      Toml.entry "class_naming" (Toml.basicString g.classNaming.name),
      Toml.entry "dsl_builders" (boolText g.dslBuilders),
      Toml.entry "suspend_builders" (boolText g.suspendBuilders),
      Toml.entry "strict_references" (boolText g.strictReferences),
      Toml.entry "max_reference_depth" (toString g.maxReferenceDepth),
      Toml.entry "max_schema_depth" (toString g.maxSchemaDepth),
      "\n",
      Toml.header "output",
      Toml.entry "directory" (Toml.basicString s.output.directory)]
      ++ s.output.package?.toList.map fun package =>
        Toml.entry "package" (Toml.basicString package)
  else .error (.other "out-of-range value for u64 type")

/-- The output directory as seen from the working directory. -/
def outputDirectory (s : Settings) (workingDirectory : String) : String :=
  Path.join workingDirectory s.output.directory

end Settings

end ThingTypes
