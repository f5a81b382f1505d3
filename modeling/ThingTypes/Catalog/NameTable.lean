import ThingTypes.Digest.Fingerprint
import ThingTypes.Entries
import ThingTypes.TypeGraph.TypeName

/-
  Name tables: which structure a type name stands for. Registering the same structure again under
  its name changes nothing, and another structure does not get the name.
-/

namespace ThingTypes

abbrev NameTable := OrderedMap TypeKey Fingerprint

/-- What comes of registering a structure under a name. -/
inductive Registration where
  /-- The name was free and is held now. -/
  | inserted
  /-- The name held the same structure. -/
  | unchanged
  /-- The name holds another structure, and goes on doing so. -/
  | conflict (existing : Fingerprint)
deriving Repr, DecidableEq

namespace NameTable

/-- Whether another structure holds the name. -/
def hasConflict (t : NameTable) (key : TypeKey) (fingerprint : Fingerprint) : Bool :=
  (t.get? key).any (· ≠ fingerprint)

def register (t : NameTable) (key : TypeKey) (fingerprint : Fingerprint) :
    Registration × NameTable :=
  match t.get? key with
  | none => (.inserted, t.insert key fingerprint)
  | some existing =>
    if existing = fingerprint then (.unchanged, t) else (.conflict existing, t)

/-- The names of a package that hold another structure. -/
def conflicting (t : NameTable) (package : String) (fingerprint : Fingerprint) : List String :=
  (t.entries.filter fun e => e.1.package = package ∧ e.2 ≠ fingerprint).map (·.1.name)

end NameTable

end ThingTypes
