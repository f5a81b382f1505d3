import ThingTypes.Catalog.Classes
import ThingTypes.Catalog.Enums

/-
  Everything that has been declared in a run. A class never takes the name of a top-level enum.
-/

namespace ThingTypes

structure Catalog where
  classes : ClassCatalog := {}
  enums : EnumCatalog := {}
deriving Inhabited

namespace Catalog

/-- Whether a class, an alias or a top-level enum has the name. -/
def isTypeNameTaken (c : Catalog) (key : TypeKey) : Bool :=
  c.classes.isRegistered key || (c.enums.separate? key).isSome

/-- The names of a package that a class of this structure cannot have. -/
def takenForClass (c : Catalog) (package : String) (fingerprint : Fingerprint) : List String :=
  c.classes.table.conflicting package fingerprint ++ c.enums.separateNames package

/-- The names of a package that a top-level enum of these values cannot have. -/
def takenForEnum (c : Catalog) (package : String) (fingerprint : Fingerprint) : List String :=
  (c.classes.table.keys.filter (·.package = package)).map TypeKey.name
    ++ c.enums.conflicting package fingerprint

/-- Claims the first of the names that no top-level enum holds and that is free or holds the
structure already. -/
def claimClassName (c : Catalog) (package : String) (names : List String)
    (fingerprint : Fingerprint) : Option (NameClaim × Catalog) :=
  let names := names.filter fun name => (c.enums.separate? ⟨package, name⟩).isNone
  (c.classes.claim package names fingerprint).map fun (claim, classes) =>
    (claim, { c with classes })

def modifyClass (c : Catalog) (key : TypeKey) (f : ClassDecl → ClassDecl) : Catalog :=
  { c with classes := c.classes.modifyClass key f }

end Catalog

end ThingTypes
