import ThingTypes.Storage.Path
import ThingTypes.Text.Split

/-
  Source files. A file stands in the directory of its package and carries the name of the type that
  it declares.
-/

namespace ThingTypes

structure SourceFile where
  package : String
  /-- The type declared in the file. -/
  name : String
  extension : String
  contents : String
deriving Repr, DecidableEq, Inhabited

/-- The path of the file below the output directory. -/
def SourceFile.relativePath (f : SourceFile) : String :=
  let segments := (Text.splitOn (· == '.') f.package.toList).filter (!·.isEmpty)
  (segments.map String.ofList ++ [f.name ++ "." ++ f.extension]).foldl Path.join ""

end ThingTypes
