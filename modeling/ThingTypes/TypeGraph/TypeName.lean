/-
  Names of generated types. A type stands at the top level of a package or inside an owner class;
  only enums are nested. `TypeKey` identifies a top-level type.
-/

namespace ThingTypes

structure TypeName where
  package : String
  name : String
  /-- The class that a nested type stands in. -/
  owner? : Option String := none
deriving Repr, DecidableEq, Inhabited

/-- A name behind its package. Names outside any package stand alone. -/
def inPackage (package name : String) : String :=
  if package.isEmpty then name else package ++ "." ++ name

namespace TypeName

/-- The name as seen from inside the package. -/
def localName (t : TypeName) : String :=
  match t.owner? with
  | some owner => owner ++ "." ++ t.name
  | none => t.name

/-- The name of the top-level type that the type belongs to. -/
def topLevel (t : TypeName) : String :=
  t.owner?.getD t.name

def display (t : TypeName) : String :=
  inPackage t.package t.localName

end TypeName

/-- What identifies a top-level type. -/
structure TypeKey where
  package : String
  name : String
deriving Repr, DecidableEq, Inhabited

def TypeKey.display (k : TypeKey) : String :=
  inPackage k.package k.name

/-- The name of the type under a key. -/
def TypeKey.typeName (k : TypeKey) : TypeName where
  package := k.package
  name := k.name

/-- The key of a type at the top level, or the key its name would have there. -/
def TypeName.key (t : TypeName) : TypeKey where
  package := t.package
  name := t.name

end ThingTypes
