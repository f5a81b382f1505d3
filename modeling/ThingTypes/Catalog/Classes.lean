import ThingTypes.Catalog.NameTable
import ThingTypes.TypeGraph.Declaration

/-
  The classes and aliases that have been declared. They share the names of a package, so one table
  holds the names of both.
-/

namespace ThingTypes

structure ClassCatalog where
  table : NameTable := ∅
  classes : OrderedMap TypeKey ClassDecl := ∅
  aliases : OrderedMap TypeKey AliasDecl := ∅
deriving Inhabited

/-- The outcome of a search for a name. -/
structure NameClaim where
  name : String
  /-- Whether the first name tried is held by another structure. -/
  renamed : Bool
  /-- Whether the name held this structure before. -/
  existing : Bool
deriving Repr, DecidableEq

namespace ClassCatalog

def isRegistered (c : ClassCatalog) (key : TypeKey) : Bool :=
  c.table.contains key

def register (c : ClassCatalog) (key : TypeKey) (fingerprint : Fingerprint) :
    Registration × ClassCatalog :=
  let (outcome, table) := c.table.register key fingerprint
  (outcome, { c with table })

/-- Registers under the first of the names that is free or holds the structure already. -/
def claim (c : ClassCatalog) (package : String) (names : List String) (fingerprint : Fingerprint)
    (renamed : Bool := false) : Option (NameClaim × ClassCatalog) :=
  match names with
  | [] => none
  | name :: rest =>
    match c.register ⟨package, name⟩ fingerprint with
    | (.inserted, c) => some (⟨name, renamed, false⟩, c)
    | (.unchanged, c) => some (⟨name, renamed, true⟩, c)
    | (.conflict _, c) => claim c package rest fingerprint true

/-- Stores a class, in the place of one with the same name. -/
def insertClass (c : ClassCatalog) (decl : ClassDecl) : ClassCatalog :=
  { c with classes := c.classes.insert decl.key decl }

def insertAlias (c : ClassCatalog) (decl : AliasDecl) : ClassCatalog :=
  { c with aliases := c.aliases.insert decl.key decl }

def modifyClass (c : ClassCatalog) (key : TypeKey) (f : ClassDecl → ClassDecl) : ClassCatalog :=
  { c with classes := c.classes.modify key f }

def class? (c : ClassCatalog) (key : TypeKey) : Option ClassDecl :=
  c.classes.get? key

def alias? (c : ClassCatalog) (key : TypeKey) : Option AliasDecl :=
  c.aliases.get? key

end ClassCatalog

end ThingTypes
