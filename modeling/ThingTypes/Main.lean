import ThingTypes.CommandLine.Run

/-
  The program: the command over the files and the environment of the machine it runs on.
-/

namespace ThingTypes

/-- The fault that the machine gives a number to, counted up or down from zero. -/
def StorageFault.ofCode (code : UInt32) (text : String) : StorageFault :=
  match code.toInt32.toInt.natAbs with
  | 2 => .notFound
  | 13 => .permissionDenied
  | 17 => .alreadyExists
  | 20 => .notADirectory
  | 21 => .isADirectory
  | 36 => .nameTooLong
  | _ => .other text

/-- The cause behind an error of the machine. -/
def StorageFault.ofIO (e : IO.Error) : StorageFault :=
  match e with
  | .noFileOrDirectory _ code _ | .permissionDenied _ code _ | .alreadyExists _ code _
  | .inappropriateType _ code _ | .invalidArgument _ code _ => ofCode code (toString e)
  | _ => .other (toString e)

/-- Runs an action and keeps its error as a value. -/
def tryStorage {α : Type} (act : IO α) : IO (Except StorageFault α) := do
  match ← act.toBaseIO with
  | .ok a => return .ok a
  | .error e => return .error (StorageFault.ofIO e)

/-- Makes a directory, unless it is there. -/
def makeDirectory (path : String) : IO (Except StorageFault Unit) := do
  match ← tryStorage (IO.FS.createDir path) with
  | .ok () => return .ok ()
  | .error fault =>
    match ← tryStorage (IO.FS.realPath path) with
    | .ok found => return if ← found.isDir then .ok () else .error fault
    | .error _ => return .error fault

/-- Makes a directory, and before it those that it stands in where they are missing. -/
partial def makeDirectories (path : String) : IO (Except StorageFault Unit) := do
  if path.isEmpty then return .ok ()
  match ← makeDirectory path with
  | .error .notFound =>
    match ← makeDirectories (Path.parent path) with
    | .ok () => makeDirectory path
    | .error fault => return .error fault
  | done => return done

/-- The files of the machine. -/
def machineFiles : FileSystem IO where
  readText path := tryStorage (IO.FS.readFile path)
  createDirectories := makeDirectories
  writeText path text := tryStorage (IO.FS.writeFile path text)

/-- The variables in a block that holds each as `name=value` and a NUL behind it. -/
def bindingsOfBlock (block : String) : List (String × String) :=
  (Text.splitOn (· == '\x00') block.toList).filterMap fun piece =>
    (Text.splitAtFirst? ['='] piece).map fun (name, value) =>
      (String.ofList name, String.ofList value)

/-- The variables that are looked up by name where the machine does not list them all. -/
def variableNames : List String :=
  let start := Settings.variableStart.map Char.toUpper
  let generation := GenerationOptions.fieldNames.map ("GENERATION__" ++ ·.map Char.toUpper)
  let output := Settings.outputKeys.map ("OUTPUT__" ++ ·.map Char.toUpper)
  ["HOME", "XDG_CONFIG_HOME"] ++ (generation ++ output).map (start ++ ·)

/-- The value of a variable with its name, if it has one. -/
def readVariable (name : String) : IO (List (String × String)) := do
  match ← IO.getEnv name with
  | some value => return [(name, value)]
  | none => return []

/-- The variables of the process. -/
def machineBindings : IO (List (String × String)) := do
  match ← tryStorage (IO.FS.readFile "/proc/self/environ") with
  | .ok block => return bindingsOfBlock block
  | .error _ => return (← variableNames.mapM readVariable).flatten

def machineEnvironment : IO Environment := do
  let workingDirectory ← IO.FS.realPath "."
  return { workingDirectory := workingDirectory.toString, bindings := ← machineBindings }

end ThingTypes

def main (arguments : List String) : IO UInt32 := do
  let environment ← ThingTypes.machineEnvironment
  let outcome ← ThingTypes.runCommand ThingTypes.machineFiles environment arguments
  IO.print outcome.stdout
  IO.eprint outcome.stderr
  return outcome.exitCode.toUInt32
