import ThingTypes.Text.Split

/-
  Paths of files, as texts with slashes. A path that starts with a slash is absolute. Empty
  components and `.` do not count, except for a `.` at the start of a path.
-/

namespace ThingTypes.Path

def isAbsolute (path : String) : Bool :=
  path.toList.head? = some '/'

/-- The path of `part` as seen from the directory `base`. An absolute part stands for itself. -/
def join (base part : String) : String :=
  if isAbsolute part || base.isEmpty then part
  else if base.toList.getLast? = some '/' then base ++ part
  else base ++ "/" ++ part

/-- What stands between the slashes. -/
def pieces (path : String) : List String :=
  (Text.splitOn (· == '/') path.toList).map String.ofList

/-- The components of a path behind its root. -/
def components (path : String) : List String :=
  let significant := (pieces path).filter fun piece => piece != "" && piece != "."
  if (pieces path).head? = some "." then "." :: significant else significant

/-- A path without its last component. -/
def parent (path : String) : String :=
  let directory := "/".intercalate (components path).dropLast
  if isAbsolute path then "/" ++ directory else directory

/-- The directory of a file and its name, if the path ends in a name. -/
def splitFile? (path : String) : Option (String × String) :=
  match (components path).getLast? with
  | none | some "." | some ".." => none
  | some name => some (parent path, name)

/-- What follows the last point of the name that a path ends in. A point at the start of a name
does not count. -/
def extension? (path : String) : Option String := do
  let (_, name) ← splitFile? path
  match Text.splitAtLast? '.' name.toList with
  | some (_ :: _, extension) => some (String.ofList extension)
  | _ => none

end ThingTypes.Path
