import ThingTypes.Identifier.Names
import ThingTypes.Schema.Node
import ThingTypes.TypeGraph.NamingContext
import ThingTypes.TypeGraph.TypeRef

/-
  Declarations of generated types: classes with their fields, enums with their constants, and
  aliases. Everything that a printer of declarations needs is here.
-/

namespace ThingTypes

structure FieldDecl where
  /-- The key in the JSON document. -/
  jsonName : String
  name : String
  type : TypeRef
  required : Bool
  nullable : Bool
  deprecated : Bool := false
  category? : Option String := none
  description? : Option String := none
  format? : Option String := none
deriving Repr, DecidableEq, Inhabited

namespace FieldDecl

/-- A field for a JSON key. A field that may be missing, or that never has a value, is nullable. -/
def ofKey (jsonName : String) (type : TypeRef) (required : Bool) : FieldDecl where
  jsonName
  name := Identifier.propertyName jsonName
  type
  required
  nullable := !required || type = .unit

/-- A field whose description is taken from its schema. -/
def ofSchema (jsonName : String) (type : TypeRef) (required : Bool) (info : SchemaInfo) :
    FieldDecl :=
  { ofKey jsonName type required with
    deprecated := info.deprecated
    category? := info.category?
    description? := info.description?
    format? := info.format? }

end FieldDecl

/-- The type of the values of an enum. -/
inductive EnumBacking where
  | scalar (kind : ScalarKind)
  /-- Every value is a record of named fields. -/
  | object
deriving Repr, DecidableEq, Inhabited

def EnumBacking.typeName : EnumBacking → String
  | scalar kind => kind.typeName
  | object => "object"

structure EnumConstant where
  name : String
  value : Json
deriving Repr, Inhabited

/-- A field of the records of an enum. -/
structure EnumField where
  jsonName : String
  name : String
  kind : ScalarKind
deriving Repr, DecidableEq, Inhabited

structure EnumDecl where
  package : String
  name : String
  /-- The class that a nested enum stands in. -/
  owner? : Option String := none
  backing : EnumBacking
  fields : List EnumField := []
  constants : List EnumConstant
  fingerprint : Fingerprint
  description? : Option String := none
deriving Repr, Inhabited

namespace EnumDecl

def typeName (e : EnumDecl) : TypeName where
  package := e.package
  name := e.name
  owner? := e.owner?

def key (e : EnumDecl) : TypeKey where
  package := e.package
  name := e.name

def constantNames (e : EnumDecl) : List String :=
  e.constants.map EnumConstant.name

end EnumDecl

inductive ClassKind where
  /-- Without fields. -/
  | plain
  /-- With at least one field. -/
  | data
  /-- Around a map from strings. -/
  | mapWrapper
  /-- A closed hierarchy over alternatives. -/
  | sealed
deriving Repr, DecidableEq, Inhabited

structure ClassDecl where
  package : String
  name : String
  fingerprint : Fingerprint
  kind : ClassKind
  role : Role
  fields : List FieldDecl := []
  title? : Option String := none
  description? : Option String := none
  deprecated : Bool := false
  /-- The sealed classes that the class is an alternative of. -/
  sealedParents : List TypeName := []
  /-- The alternatives of a sealed class. -/
  variants : List TypeRef := []
  /-- The value type of a map wrapper. -/
  mapValue? : Option TypeRef := none
  nestedEnums : List EnumDecl := []
deriving Repr, Inhabited

namespace ClassDecl

/-- A class without members, described by its schema. -/
def ofSchema (name : TypeName) (fingerprint : Fingerprint) (kind : ClassKind) (role : Role)
    (info : SchemaInfo) : ClassDecl where
  package := name.package
  name := name.name
  fingerprint
  kind
  role
  title? := info.title?
  description? := info.description?
  deprecated := info.deprecated

def typeName (c : ClassDecl) : TypeName where
  package := c.package
  name := c.name

def key (c : ClassDecl) : TypeKey where
  package := c.package
  name := c.name

/-- Sets the fields. A class with fields is a data class, one without is plain. -/
def withFields (c : ClassDecl) (fields : List FieldDecl) : ClassDecl :=
  { c with fields, kind := if fields.isEmpty then .plain else .data }

def field? (c : ClassDecl) (jsonName : String) : Option FieldDecl :=
  c.fields.find? (·.jsonName = jsonName)

def nestedEnum? (c : ClassDecl) (name : String) : Option EnumDecl :=
  c.nestedEnums.find? (·.name = name)

/-- Nests an enum. The first one of the same name is replaced. -/
def nestEnum (c : ClassDecl) (e : EnumDecl) : ClassDecl :=
  { c with nestedEnums := place c.nestedEnums }
where
  place : List EnumDecl → List EnumDecl
    | [] => [e]
    | d :: rest => if d.name = e.name then e :: rest else d :: place rest

/-- Makes the class an alternative of a sealed class, once. -/
def addSealedParent (c : ClassDecl) (parent : TypeName) : ClassDecl :=
  if parent ∈ c.sealedParents then c
  else { c with sealedParents := c.sealedParents ++ [parent] }

end ClassDecl

structure AliasDecl where
  package : String
  name : String
  target : TypeRef
  /-- The sealed class that the alias is an alternative of. -/
  sealedParent? : Option TypeName := none
  fingerprint : Fingerprint
deriving Repr, DecidableEq, Inhabited

namespace AliasDecl

def typeName (a : AliasDecl) : TypeName where
  package := a.package
  name := a.name

def key (a : AliasDecl) : TypeKey where
  package := a.package
  name := a.name

end AliasDecl

end ThingTypes
