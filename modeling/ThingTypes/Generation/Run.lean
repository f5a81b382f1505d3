import ThingTypes.Generation.Assembly
import ThingTypes.Kotlin.Printer
import ThingTypes.Storage.FileSystem

/-
  A whole generation run: a model is loaded from files, its types are declared, and the sources are
  written.
-/

namespace ThingTypes

/-- What a run reports. -/
structure GenerationReport where
  /-- The Thing, with its package. -/
  thing : String
  /-- The paths of the files written, in order. -/
  files : List String
  classes : Nat
  enums : Nat
  aliases : Nat
deriving Repr, DecidableEq, Inhabited

def GeneratedModel.report (model : GeneratedModel) (files : List String) : GenerationReport where
  thing := model.thing.display
  files
  classes := model.catalog.classes.classes.size
  enums := model.catalog.enums.size
  aliases := model.catalog.classes.aliases.size

/-- The inputs of a run. -/
structure GenerationJob where
  /-- The directory that relative locations start at. -/
  root : String
  location : String
  package : String
  /-- The directory that sources are written below. -/
  directory : String
  options : GenerationOptions := {}
  settings : ResolutionSettings := options.resolutionSettings
  style : Kotlin.Style := {}

/-- The style of sources for some options. -/
def Kotlin.Style.ofOptions (o : GenerationOptions) (profile : RenderProfile := {}) :
    Kotlin.Style where
  profile
  builders := o.dslBuilders
  suspending := o.suspendBuilders

variable {m : Type → Type} [Monad m]

/-- Runs a job. Nothing is written unless the whole model can be built. -/
def GenerationJob.run (job : GenerationJob) (fs : FileSystem m) :
    m (Except GenerationError GenerationReport) := do
  let load := fs.loader job.root
  match ← GeneratedModel.build load job.options job.settings job.location job.package with
  | .error e => return .error e
  | .ok model =>
    match ← fs.writeSources job.directory (model.sourceFiles job.style) with
    | .error fault => return .error (.storage fault)
    | .ok files => return .ok (model.report files)

end ThingTypes
