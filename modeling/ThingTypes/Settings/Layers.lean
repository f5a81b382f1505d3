import ThingTypes.Settings.Basic
import ThingTypes.Settings.Format
import ThingTypes.Settings.KeyPath
import ThingTypes.Storage.FileSystem

/-
  Loading settings in layers, of which the later ones win: files in the working directory, the
  file of the user, a file that is asked for, and at last variables of the environment. The keys
  at the top of a file and the names of variables are read as paths.
-/

namespace ThingTypes

/-- What a program finds around it when it starts. -/
structure Environment where
  workingDirectory : String
  bindings : List (String × String)
deriving Repr, Inhabited

def Environment.valueOf? (e : Environment) (name : String) : Option String :=
  Entries.get? name e.bindings

namespace Settings

/-- The name of settings files. -/
def fileName : String := "thingmodel-codegen.toml"

/-- The settings files of a working directory. -/
def localFiles : List String :=
  [fileName, "." ++ fileName, "config/" ++ fileName]

/-- The directory for the settings of the user, as far as the environment tells. -/
def userDirectory? (e : Environment) : Option String :=
  ((e.valueOf? "XDG_CONFIG_HOME").filter Path.isAbsolute).or
    (((e.valueOf? "HOME").filter (· != "")).map (Path.join · ".config"))

/-- The settings file of the user. -/
def userFile? (e : Environment) : Option String :=
  (userDirectory? e).map fun directory =>
    Path.join directory ("codegen/" ++ fileName)

/-- What variables that hold settings start with, in lower case. -/
def variableStart : String := "thingmodel_codegen__"

/-- The path in the name of a variable, where two underscores stand for a point. -/
def pathInName : List Char → List Char
  | '_' :: '_' :: cs => '.' :: pathInName cs
  | c :: cs => c :: pathInName cs
  | [] => []

/-- The setting that a variable holds, if it holds one. Letter case does not matter in its name. -/
def settingOfVariable? (name value : String) : Option (String × SettingsValue) := do
  let path ← variableStart.toList.isPrefixOf? (Unicode.lowercase name.toList)
  return (String.ofList (pathInName path), .ofText value)

/-- The settings of the environment. -/
def environmentLayer (e : Environment) : SettingsLayer :=
  e.bindings.filterMap fun (name, value) => settingOfVariable? name value

/-- Puts a setting over those that are there. -/
def putSetting (entries : List (String × SettingsValue)) (setting : String × SettingsValue) :
    List (String × SettingsValue) :=
  (SettingsValue.putAt setting.2 (KeyPath.ofText setting.1) (.table entries)).entries

/-- All layers as one, later ones over earlier ones. -/
def overlay (layers : List SettingsLayer) : List (String × SettingsValue) :=
  layers.flatten.foldl putSetting []

/-- A settings file that was found. -/
structure File where
  path : String
  format : SettingsFormat
  text : String
deriving Repr, Inhabited

def File.layer (file : File) : Except SettingsFault SettingsLayer :=
  match file.format.layer? file.text with
  | some layer => .ok layer
  | none => .error (.malformed file.path)

variable {m : Type → Type} [Monad m]

/-- The file of a name with an extension added, of the first format that has one. -/
def findExtended (fs : FileSystem m) (directory name : String) :
    List SettingsFormat → m (Except SettingsFault (Option File))
  | [] => return .ok none
  | format :: formats => do
    let path := Path.join directory (name ++ "." ++ format.extension)
    match ← fs.readText path with
    | .ok text => return .ok (some { path, format, text })
    | .error fault =>
      if fault.isAbsence || fault = .isADirectory then findExtended fs directory name formats
      else return .error (.unreadable path fault)

/-- The settings file at a path, or where no file is there, the one with an extension added to
its name. -/
def findFile (fs : FileSystem m) (path : String) :
    m (Except SettingsFault (Option File)) := do
  match ← fs.readText path with
  | .ok text =>
    match SettingsFormat.ofPath? path with
    | some format => return .ok (some { path, format, text })
    | none => return .error (.unknownFormat path)
  | .error fault =>
    if fault.isAbsence || fault = .isADirectory then
      match Path.splitFile? path with
      | some (directory, name) => findExtended fs directory name SettingsFormat.all
      | none => return .ok none
    else return .error (.unreadable path fault)

/-- The layer of a file that must be there. -/
def requiredLayer (fs : FileSystem m) (path : String) :
    m (Except SettingsFault SettingsLayer) := do
  match ← findFile fs path with
  | .ok (some file) => return file.layer
  | .ok none => return .error (.missingFile path)
  | .error fault => return .error fault

/-- The layer of a file that need not be there. -/
def optionalLayer (fs : FileSystem m) (path : String) :
    m (Except SettingsFault SettingsLayer) := do
  match ← findFile fs path with
  | .ok (some file) => return file.layer
  | .ok none | .error _ => return .ok []

/-- The layers of several files, up to the first failure. -/
def optionalLayers (fs : FileSystem m) :
    List String → m (Except SettingsFault (List SettingsLayer))
  | [] => return .ok []
  | path :: paths => do
    match ← optionalLayer fs path with
    | .error fault => return .error fault
    | .ok layer => return (← optionalLayers fs paths).map (layer :: ·)

/-- Whether something is at a path, a file or a directory. -/
def isThere (fs : FileSystem m) (path : String) : m Bool := do
  match ← fs.readText path with
  | .ok _ => return true
  | .error fault => return !fault.isAbsence

/-- The files that need not be there: those of the working directory, and that of the user if
anything is at its path. -/
def optionalFiles (fs : FileSystem m) (e : Environment) : m (List String) := do
  match userFile? e with
  | none => return localFiles
  | some path => return if ← isThere fs path then localFiles ++ [path] else localFiles

/-- Loads the settings, with the file that is asked for if there is one. -/
def load (fs : FileSystem m) (e : Environment) (file? : Option String) :
    m (Except SettingsFault Settings) := do
  match ← optionalLayers fs (← optionalFiles fs e) with
  | .error fault => return .error fault
  | .ok layers =>
    let asked ← match file? with
      | some path => requiredLayer fs path
      | none => pure (.ok [])
    match asked with
    | .error fault => return .error fault
    | .ok layer => return ofEntries (overlay (layers ++ [layer, environmentLayer e]))

end Settings

end ThingTypes
