import ThingTypes.Json.Reader
import ThingTypes.Settings.Toml
import ThingTypes.Storage.Path

/-
  The formats of settings files. The extension of a file names its format.
-/

namespace ThingTypes

/-- Values by the texts that write their paths. -/
abbrev SettingsLayer := List (String × SettingsValue)

namespace SettingsValue

mutual

/-- The value that JSON writes. A number is an integer if it fits 64 bits with a sign. -/
def ofJson : Json → SettingsValue
  | .null => nil
  | .bool b => bool b
  | .number (.integer n) =>
    if fitsInteger n then integer n
    else float (.finite (((Binary64.ofRatio? n.natAbs 1).getD .zero).withSign (n < 0)))
  | .number (.real x) => float (.finite x)
  | .string s => text s
  | .array items => list (itemsOfJson items)
  | .object members => table (entriesOfJson members)

def itemsOfJson : List Json → List SettingsValue
  | [] => []
  | item :: rest => ofJson item :: itemsOfJson rest

def entriesOfJson : List (String × Json) → List (String × SettingsValue)
  | [] => []
  | (key, member) :: rest => (key, ofJson member) :: entriesOfJson rest

end

end SettingsValue

inductive SettingsFormat where
  | toml
  | json
deriving Repr, DecidableEq, Inhabited

namespace SettingsFormat

/-- The formats, in the order in which their files are looked for. -/
def all : List SettingsFormat := [toml, json]

def extension : SettingsFormat → String
  | toml => "toml"
  | json => "json"

/-- The format of a file. -/
def ofPath? (path : String) : Option SettingsFormat :=
  (Path.extension? path).bind fun extension => all.find? (·.extension = extension)

/-- The settings in the text of a file. -/
def layer? (format : SettingsFormat) (text : String) : Option SettingsLayer :=
  match format with
  | toml => Toml.ofText? text
  | json => do return SettingsValue.entriesOfJson (← (← Json.ofText? text).members?)

end SettingsFormat

end ThingTypes
