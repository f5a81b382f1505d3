import ThingTypes.Text.Split

/-
  Locations of documents: paths with `/` between their segments, behind a scheme or without one.
  `resolve` finds the location that an href names when it is read in the document at a base, and
  `relativize` finds an href for a given location. Both work on the text alone; `.` and `..`
  are dealt with by `normalize`.
-/

namespace ThingTypes.Location

/-- What ends a scheme. -/
def schemeMark : List Char := [':', '/', '/']

def hasScheme (cs : List Char) : Bool :=
  Text.occursIn schemeMark cs

def isAbsolute (cs : List Char) : Bool :=
  cs.head? = some '/'

/-- The scheme with its mark, empty if there is none, and the path behind it. -/
def splitScheme (cs : List Char) : List Char × List Char :=
  match Text.splitAtFirst? schemeMark cs with
  | some (scheme, path) => (scheme ++ schemeMark, path)
  | none => ([], cs)

abbrev Segment := List Char

def segments (cs : List Char) : List Segment :=
  Text.splitOn (· == '/') cs

def joinSegments (l : List Segment) : List Char :=
  ['/'].intercalate l

def here : Segment := ['.']

def up : Segment := ['.', '.']

/-- Takes one more segment. The segments already taken stand in reverse. Going up takes back a
segment; where none is left it stays at the root of an absolute path, and is kept otherwise. -/
def pushSegment (absolute : Bool) (taken : List Segment) (s : Segment) : List Segment :=
  if s = [] ∨ s = here then taken
  else if s = up then
    match taken with
    | last :: rest => if last ≠ up then rest else if absolute then taken else up :: taken
    | [] => if absolute then [] else [up]
  else s :: taken

def normalSegments (absolute : Bool) (l : List Segment) : List Segment :=
  (l.foldl (pushSegment absolute) []).reverse

/-- The path without empty segments, `.` and avoidable `..`. -/
def normalize (path : List Char) : List Char :=
  let absolute := isAbsolute path
  let joined := joinSegments (normalSegments absolute (segments path))
  if absolute then '/' :: joined else joined

/-- Everything before the last slash. -/
def directory (path : List Char) : List Char :=
  match Text.splitAtLast? '/' path with
  | some (dir, _) => dir
  | none => []

/-- What `href` names in the document at `base`. -/
def resolveChars (base href : List Char) : List Char :=
  if hasScheme href || isAbsolute href then href
  else
    let (scheme, path) := splitScheme base
    let dir := directory path
    let joined := if dir.isEmpty then href else dir ++ '/' :: href
    scheme ++ normalize joined

/-- Drops what two lists of segments have in common at their start. -/
def dropCommon : List Segment → List Segment → List Segment × List Segment
  | a :: as, b :: bs => if a = b then dropCommon as bs else (a :: as, b :: bs)
  | as, bs => (as, bs)

/-- The segments of the directory of a normalized path. -/
def directorySegments (path : List Char) : List Segment :=
  match Text.splitAtLast? '/' path with
  | some (dir, _) => segments dir
  | none => []

/-- An href for `target` in the document at `base`: up from the directory of the base and down to
the target. A target that has a scheme or is absolute names itself, and so does one that lies
outside what going up can reach. -/
def relativizeChars (base target : List Char) : List Char :=
  if hasScheme target || isAbsolute target || hasScheme base then target
  else
    let target := normalize target
    let (remaining, down) := dropCommon (directorySegments (normalize base)) (segments target)
    if remaining.contains up then target
    else joinSegments (List.replicate remaining.length up ++ down)

def resolve (base href : String) : String :=
  String.ofList (resolveChars base.toList href.toList)

def relativize (base target : String) : String :=
  String.ofList (relativizeChars base.toList target.toList)

end ThingTypes.Location
