import ThingTypes.CommandLine.Arguments
import ThingTypes.Generation.Run
import ThingTypes.Settings.Layers

/-
  The command: settings are loaded and overridden by the arguments, and then one model is
  generated. Everything it does to files goes through the file system that it is given.
-/

namespace ThingTypes

/-- What a command leaves behind for the one who called it. -/
structure Outcome where
  exitCode : Nat
  stdout : String := ""
  stderr : String := ""
deriving Repr, DecidableEq, Inhabited

/-- Why a command fails, once its arguments have been read. -/
inductive CommandFault where
  | settings (fault : SettingsFault)
  | missingPackage
  | invalidModelPath (path : String)
  | generation (model : String) (error : GenerationError)
deriving Repr, Inhabited

/-- The message of an error with those of its causes. A refusal of the storage has one. -/
def GenerationError.chain : GenerationError → String
  | .storage fault => (GenerationError.storage fault).message ++ ": " ++ fault.message
  | error => error.message

def CommandFault.message : CommandFault → String
  | settings fault => s!"loading configuration: Configuration error: {fault.message}"
  | missingPackage => "no package given; pass --package or set output.package in the config"
  | invalidModelPath path => s!"invalid model path: {path}"
  | generation model error => s!"generating from {model}: {error.chain}"

def usage : String :=
  "Generate typed sources from a WoT Thing Model\n\n"
    ++ "Usage: thingmodel-codegen [OPTIONS] <MODEL>\n\n"
    ++ "Arguments:\n"
    ++ "  <MODEL>  Thing Model file\n\n"
    ++ "Options:\n"
    ++ "  -p, --package <PACKAGE>     Root package of generated types\n"
    ++ "  -o, --output <OUTPUT>       Output directory\n"
    ++ "      --enum-placement <ENUM_PLACEMENT>  Where generated enums are placed"
    ++ " [possible values: inline, separate]\n"
    ++ "      --class-naming <CLASS_NAMING>      How nested classes are named"
    ++ " [possible values: always-compound, original-then-compound]\n"
    ++ "      --dsl                   Emit DSL builders for data classes\n"
    ++ "      --suspend-dsl           Make DSL builder blocks suspending (implies --dsl)\n"
    ++ "      --strict-references     Fail on references that resolve to nothing\n"
    ++ "  -c, --config <CONFIG>       Additional config file\n"
    ++ "  -h, --help                  Print help\n"

def CommandFault.outcome (fault : CommandFault) : Outcome where
  exitCode := 1
  stderr := "Error: " ++ fault.message ++ "\n"

def UsageFault.outcome : UsageFault → Outcome
  | .helpWanted => { exitCode := 0, stdout := usage }
  | fault => { exitCode := 2, stderr := "error: " ++ fault.message ++ "\n" }

def GenerationReport.summary (r : GenerationReport) (directory : String) : String :=
  let files := r.files.length
  let types := s!"({r.classes} classes, {r.enums} enums, {r.aliases} aliases)"
  s!"Generated {files} files for {r.thing} {types} in {directory}\n"

variable {m : Type → Type} [Monad m]

/-- Generates the model that the arguments name under the settings. -/
def Arguments.generate (a : Arguments) (fs : FileSystem m) (e : Environment) (s : Settings) :
    m (Except CommandFault Outcome) := do
  match s.output.package?, Path.splitFile? a.model with
  | none, _ => return .error .missingPackage
  | some _, none => return .error (.invalidModelPath a.model)
  | some package, some (root, location) =>
    let directory := s.outputDirectory e.workingDirectory
    let job : GenerationJob := {
      root, location, package, directory
      options := s.generation
      style := .ofOptions s.generation }
    match ← job.run fs with
    | .error error => return .error (.generation a.model error)
    | .ok report => return .ok { exitCode := 0, stdout := report.summary directory }

def Arguments.run (a : Arguments) (fs : FileSystem m) (e : Environment) :
    m (Except CommandFault Outcome) := do
  match ← Settings.load fs e a.config? with
  | .error fault => return .error (.settings fault)
  | .ok s => a.generate fs e (a.applyTo s)

/-- The command with its arguments. -/
def runCommand (fs : FileSystem m) (e : Environment) (arguments : List String) : m Outcome := do
  match Arguments.parse arguments with
  | .error fault => return fault.outcome
  | .ok a =>
    match ← a.run fs e with
    | .ok outcome => return outcome
    | .error fault => return fault.outcome

end ThingTypes
