import ThingTypes.Error
import ThingTypes.Json.Reader
import ThingTypes.Kotlin.SourceFile
import ThingTypes.Reference.Inlining
import ThingTypes.Storage.Path

/-
  What a program needs of a file system, over an arbitrary monad. Documents are loaded from files
  below a root directory, and sources are written below an output directory.
-/

namespace ThingTypes

structure FileSystem (m : Type → Type) where
  readText : String → m (Except StorageFault String)
  /-- Makes a directory and those that it stands in. -/
  createDirectories : String → m (Except StorageFault Unit)
  writeText : String → String → m (Except StorageFault Unit)

/-- Drops `lead` from the start of a text that has it there. -/
def withoutLead? (lead text : String) : Option String :=
  (lead.toList.isPrefixOf? text.toList).map String.ofList

/-- Whether a location is on the network. -/
def isRemote (location : String) : Bool :=
  (withoutLead? "http://" location).isSome || (withoutLead? "https://" location).isSome

/-- The path of the file at a location. -/
def filePath (root location : String) : String :=
  Path.join root ((withoutLead? "file://" location).getD location)

/-- The document that the text of a file holds. -/
def documentOfText (text : String) : Except LoadFault Json :=
  match Json.ofText? text with
  | some document => .ok document
  | none => .error .notJson

variable {m : Type → Type} [Monad m]

/-- Loads documents from files. Relative locations start at the root, and the network is out of
reach. -/
def FileSystem.loader (fs : FileSystem m) (root : String) : Loader m := fun location => do
  if isRemote location then return .error .network
  else
    match ← fs.readText (filePath root location) with
    | .ok text => return documentOfText text
    | .error fault => return .error (.storage fault)

/-- Writes a file, with the directories that it stands in. -/
def FileSystem.writeFile (fs : FileSystem m) (path contents : String) :
    m (Except StorageFault Unit) := do
  match ← fs.createDirectories (Path.parent path) with
  | .ok () => fs.writeText path contents
  | .error fault => return .error fault

/-- Writes sources below a directory, one after the other, and gives their paths. -/
def FileSystem.writeSources (fs : FileSystem m) (directory : String) :
    List SourceFile → m (Except StorageFault (List String))
  | [] => return .ok []
  | file :: rest => do
    let path := Path.join directory file.relativePath
    match ← fs.writeFile path file.contents with
    | .error fault => return .error fault
    | .ok () =>
      match ← writeSources fs directory rest with
      | .ok paths => return .ok (path :: paths)
      | .error fault => return .error fault

end ThingTypes
