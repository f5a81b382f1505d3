import ThingTypes.Entries
import ThingTypes.Storage.FileSystem

/-
  A file system in memory: a tree of files and directories, and the directory that relative paths
  start at. A path is walked from one directory to the next, so what stands before a slash must
  be a directory. Names and whole paths have a greatest length.
-/

namespace ThingTypes

inductive FileNode where
  | file (text : String)
  | directory (entries : List (String × FileNode))
deriving Inhabited

/-- The names on the way from the root. -/
abbrev FileAddress := List String

namespace FileNode

def emptyDirectory : FileNode := directory []

def isDirectory : FileNode → Bool
  | directory _ => true
  | file _ => false

/-- What stands at an address below a node. -/
def at? (node : FileNode) : FileAddress → Option FileNode
  | [] => some node
  | name :: names =>
    match node with
    | directory entries => (Entries.get? name entries).bind (at? · names)
    | file _ => none

/-- Puts a node at an address, unless the way there leads through something else than
directories. -/
def put (new : FileNode) : FileAddress → FileNode → FileNode
  | [], _ => new
  | [name], directory entries => directory (Entries.insert name new entries)
  | name :: names, directory entries =>
    match Entries.get? name entries with
    | some below => directory (Entries.insert name (put new names below) entries)
    | none => directory entries
  | _, file text => file text

mutual

/-- The files of a tree with their addresses, given in reverse the address of the tree itself. -/
def filesFrom (above : FileAddress) : FileNode → List (FileAddress × String)
  | file text => [(above.reverse, text)]
  | directory entries => filesOfEntries above entries

def filesOfEntries (above : FileAddress) :
    List (String × FileNode) → List (FileAddress × String)
  | [] => []
  | (name, node) :: rest => filesFrom (name :: above) node ++ filesOfEntries above rest

end

end FileNode

structure FileTree where
  root : FileNode := .emptyDirectory
  /-- Where relative paths start. -/
  start : FileAddress := []
deriving Inhabited

namespace FileTree

def node? (t : FileTree) (address : FileAddress) : Option FileNode :=
  t.root.at? address

def put (t : FileTree) (address : FileAddress) (node : FileNode) : FileTree :=
  { t with root := FileNode.put node address t.root }

/-- The greatest length of a name, in bytes. -/
def maxNameLength : Nat := 255

/-- The greatest length of a path, in bytes. -/
def maxPathLength : Nat := 4095

/-- Refuses an address unless a directory is there. -/
def requireDirectory (t : FileTree) (address : FileAddress) : Except StorageFault Unit :=
  match t.node? address with
  | some (.directory _) => .ok ()
  | some (.file _) => .error .notADirectory
  | none => .error .notFound

/-- One step from a directory. -/
def step (t : FileTree) (address : FileAddress) (piece : String) :
    Except StorageFault FileAddress := do
  t.requireDirectory address
  if piece = "" ∨ piece = "." then return address
  else if piece = ".." then return address.dropLast
  else if maxNameLength < piece.utf8ByteSize then throw .nameTooLong
  else return address ++ [piece]

def walk (t : FileTree) (address : FileAddress) : List String → Except StorageFault FileAddress
  | [] => .ok address
  | piece :: pieces => do
    let next ← t.step address piece
    walk t next pieces

/-- The pieces of a path, if files can be looked up by it. -/
def usablePieces (path : String) : Except StorageFault (List String) :=
  if path.toList.contains '\x00' then
    .error (.other "file name contained an unexpected NUL byte")
  else if path.isEmpty then .error .notFound
  else if maxPathLength < path.utf8ByteSize then .error .nameTooLong
  else .ok (Path.pieces path)

/-- Where the walk along a path starts. -/
def origin (t : FileTree) (path : String) : FileAddress :=
  if Path.isAbsolute path then [] else t.start

def address (t : FileTree) (path : String) : Except StorageFault FileAddress := do
  t.walk (t.origin path) (← usablePieces path)

def read (t : FileTree) (path : String) : Except StorageFault String := do
  match t.node? (← t.address path) with
  | some (.file text) => return text
  | some (.directory _) => throw .isADirectory
  | none => throw .notFound

def write (t : FileTree) (path text : String) : Except StorageFault FileTree := do
  let address ← t.address path
  match t.node? address with
  | some (.directory _) => throw .isADirectory
  | _ => return t.put address (.file text)

/-- Walks along a path and makes the directories that are missing. The tree holds those made before
a failure, too. -/
def makeDirectories (t : FileTree) (address : FileAddress) :
    List String → Except StorageFault Unit × FileTree
  | [] =>
    match t.node? address with
    | some (.file _) => (.error .alreadyExists, t)
    | _ => (.ok (), t)
  | piece :: pieces =>
    match t.step address piece with
    | .error fault => (.error fault, t)
    | .ok next =>
      match t.node? next with
      | some _ => makeDirectories t next pieces
      | none => makeDirectories (t.put next .emptyDirectory) next pieces

/-- Makes the directories on a path. There is nothing to make on an empty one. -/
def createDirectories (t : FileTree) (path : String) : Except StorageFault Unit × FileTree :=
  if path.isEmpty then (.ok (), t)
  else
    match usablePieces path with
    | .ok pieces => t.makeDirectories (t.origin path) pieces
    | .error fault => (.error fault, t)

/-- The file system of a tree. -/
def fileSystem : FileSystem (StateM FileTree) where
  readText path := do return (← get).read path
  createDirectories path := modifyGet fun t => t.createDirectories path
  writeText path text := modifyGet fun t =>
    match t.write path text with
    | .ok changed => (.ok (), changed)
    | .error fault => (.error fault, t)

/-- The files of the tree with their addresses. -/
def files (t : FileTree) : List (FileAddress × String) :=
  t.root.filesFrom []

/-- A tree with the given files below its start. Files that cannot be made are left out. -/
def ofFiles (start : FileAddress) (files : List (String × String)) : FileTree :=
  let empty : FileTree := { start }
  let (_, empty) := empty.createDirectories ("/" ++ "/".intercalate start)
  files.foldl (fun t (path, text) => (fileSystem.writeFile path text t).2) empty

end FileTree

end ThingTypes
