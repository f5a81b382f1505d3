import ThingTypes.Catalog.NameTable
import ThingTypes.Error
import ThingTypes.TypeGraph.Declaration

/-
  The enums that have been declared. An enum at the top level keeps its name: the same values share
  it and other values are refused. A nested enum replaces an earlier one of its name without asking.
-/

namespace ThingTypes

inductive EnumPlacement where
  /-- Inside the class whose field has the type. -/
  | inline
  /-- At the top level of the package. -/
  | separate
deriving Repr, DecidableEq, Inhabited

structure EnumCatalog where
  table : NameTable := ∅
  /-- The constants that were last registered under a name. -/
  constants : OrderedMap TypeKey (List String) := ∅
  separate : OrderedMap TypeKey EnumDecl := ∅
  /-- Nested enums by their name alone. -/
  inline : OrderedMap String EnumDecl := ∅
deriving Inhabited

/-- How a top-level enum got its name. -/
inductive EnumRegistration where
  | inserted
  /-- An enum with the same values has the name already. -/
  | reused
deriving Repr, DecidableEq

namespace EnumCatalog

/-- Registers a nested enum. -/
def insertInline (c : EnumCatalog) (e : EnumDecl) : EnumCatalog where
  table := c.table.insert e.key e.fingerprint
  constants := c.constants.insert e.key e.constantNames
  separate := c.separate
  inline := c.inline.insert e.name e

/-- Registers a top-level enum. -/
def insertSeparate (c : EnumCatalog) (e : EnumDecl) :
    Except GenerationError (EnumRegistration × EnumCatalog) :=
  match c.table.register e.key e.fingerprint with
  | (.inserted, table) =>
    .ok (.inserted,
      { c with
        table
        constants := c.constants.insert e.key e.constantNames
        separate := c.separate.insert e.key e })
  | (.unchanged, _) => .ok (.reused, c)
  | (.conflict _, _) =>
    .error (.enumConflict e.package e.name ((c.constants.get? e.key).getD []) e.constantNames)

def hasConflict (c : EnumCatalog) (e : EnumDecl) : Bool :=
  c.table.hasConflict e.key e.fingerprint

def inline? (c : EnumCatalog) (name : String) : Option EnumDecl :=
  c.inline.get? name

def separate? (c : EnumCatalog) (key : TypeKey) : Option EnumDecl :=
  c.separate.get? key

def size (c : EnumCatalog) : Nat :=
  c.separate.size + c.inline.size

def isEmpty (c : EnumCatalog) : Bool :=
  c.size == 0

/-- The names of the top-level enums of a package. -/
def separateNames (c : EnumCatalog) (package : String) : List String :=
  (c.separate.keys.filter (·.package = package)).map TypeKey.name

/-- The names of the top-level enums of a package that have other values. -/
def conflicting (c : EnumCatalog) (package : String) (fingerprint : Fingerprint) : List String :=
  (c.separate.entries.filter fun e =>
    e.1.package = package ∧ e.2.fingerprint ≠ fingerprint).map (·.1.name)

end EnumCatalog

end ThingTypes
