import ThingTypes.Generation.GeneratedModel
import ThingTypes.Identifier.Names
import ThingTypes.Kotlin.DocComment
import ThingTypes.Kotlin.Profile
import ThingTypes.Kotlin.SourceFile
import ThingTypes.Schema.Reader

/-
  Printing declarations as source files, one for each type at the top level: classes with the enums
  nested in them, aliases, enums and action interfaces. A declaration is a fragment, that is, its
  lines and the names that they need imported; a file is a fragment with its package and imports
  in front.
-/

namespace ThingTypes.Kotlin

/-- What sources look like, apart from the types in them. -/
structure Style where
  profile : RenderProfile := {}
  /-- Whether data classes get builders. -/
  builders : Bool := false
  /-- Whether builders take suspending blocks. -/
  suspending : Bool := false
deriving Repr, DecidableEq, Inhabited

/-- A line at a level of indentation. -/
structure Line where
  level : Nat
  text : String
deriving Repr, DecidableEq, Inhabited

/-- Lines and the imports that they need. -/
structure Fragment where
  lines : List Line := []
  imports : List String := []
deriving Repr, Inhabited

namespace Fragment

instance : Append Fragment where
  append a b := { lines := a.lines ++ b.lines, imports := a.imports ++ b.imports }

def line (level : Nat) (text : String) : Fragment where
  lines := [⟨level, text⟩]

def blank : Fragment :=
  line 0 ""

def importing (imports : List String) : Fragment where
  imports

def concat (l : List Fragment) : Fragment :=
  l.foldr (· ++ ·) {}

end Fragment

open Fragment (line blank importing concat)

/-- The text of a line. An empty line is not indented. -/
def Line.render (p : RenderProfile) (l : Line) : String :=
  if l.text.isEmpty then "\n" else p.indentation l.level ++ l.text ++ "\n"

def serializable : String := "kotlinx.serialization.Serializable"

def serialName : String := "kotlinx.serialization.SerialName"

def jvmInline : String := "kotlin.jvm.JvmInline"

/-- The first line of every file. -/
def fileHeader : String := "// Generated by thingmodel-codegen. Do not edit."

/-- The import that a type needs in a package, if it is from another one. -/
def typeImport (package : String) (name : TypeName) : List String :=
  if name.package = package then [] else [name.package ++ "." ++ name.topLevel]

def typeImports (package : String) (names : List TypeName) : List String :=
  names.flatMap (typeImport package)

/-- The imports that a reference to a type needs. -/
def refImports (package : String) (type : TypeRef) : List String :=
  typeImports package type.referencedName?.toList

/-- A reference to a type, as it is written in the package of the type or with its import. -/
def typeText (p : RenderProfile) : TypeRef → String
  | .primitive kind => p.scalarType kind
  | .classType name | .enumType name | .aliasType name => name.localName
  | .list item => listOf (typeText p item)
  | .map item => mapOf (typeText p item)
  | .unit => nullable p.types.any

/-- The list of supertypes behind a declaration. -/
def supertypes (parents : List TypeName) : String :=
  if parents.isEmpty then ""
  else " : " ++ ", ".intercalate (parents.map TypeName.localName)

def docComment (level : Nat) (description? : Option String) : Fragment where
  lines := (docLines description?).map (Line.mk level)

def deprecation (level : Nat) (deprecated : Bool) : Fragment :=
  if deprecated then line level "@Deprecated(\"Deprecated in the Thing Model\")" else {}

/-- A file from its declarations. -/
def sourceFile (p : RenderProfile) (package name : String) (f : Fragment) : SourceFile :=
  let packageLine := if package.isEmpty then "" else "package " ++ package ++ "\n"
  let imports := (ascending f.imports).map fun path => "import " ++ path ++ "\n"
  let importBlock := if imports.isEmpty then "" else String.join imports ++ "\n"
  let body := String.join (f.lines.map (Line.render p))
  { package
    name
    extension := p.extension
    contents :=
      fileHeader ++ "\n" ++ packageLine ++ "\n" ++ importBlock
        ++ String.ofList (Unicode.trimEnd body.toList) ++ "\n" }

/-- A number where a floating-point one is expected: always with a fraction or an exponent. -/
def floatLiteral (n : JsonNumber) : String :=
  let text := n.render
  if text.any fun c => c = '.' || c = 'e' || c = 'E' then String.ofList text
  else String.ofList text ++ ".0"

/-- A value where one of a scalar type is expected. What has another type becomes a string. -/
def literal (kind : ScalarKind) (value : Json) : String :=
  match kind, value with
  | _, .null => "null"
  | .integer, .number n => String.ofList n.render ++ "L"
  | .number, .number n => floatLiteral n
  | .boolean, .bool b => if b then "true" else "false"
  | _, other => stringLiteral other.asText

/-- The members that every enum has anyway. -/
def enumMembers : List String := ["name", "ordinal"]

/-- The parameter for a field of the records of an enum. -/
def enumParameter (field : EnumField) : String :=
  if enumMembers.contains field.name then field.name ++ "Value" else field.name

/-- The parameters of the constructor of an enum. -/
def enumParameters (p : RenderProfile) (e : EnumDecl) : String :=
  match e.backing with
  | .scalar kind => "val value: " ++ p.scalarType kind
  | .object =>
    ", ".intercalate <| e.fields.map fun field =>
      "val " ++ enumParameter field ++ ": " ++ nullable (p.scalarType field.kind)

/-- The value of a field of a record, `null` where it is missing. -/
def recordArgument (record : Json) (field : EnumField) : String :=
  match record.get? field.jsonName with
  | some value => literal field.kind value
  | none => "null"

/-- A constant with its serial name and its arguments. -/
def enumConstant (e : EnumDecl) (constant : EnumConstant) : String :=
  let (serial, arguments) := match e.backing with
    | .scalar kind => (constant.value.asText, literal kind constant.value)
    | .object =>
      (constant.name, ", ".intercalate (e.fields.map (recordArgument constant.value)))
  "@SerialName(" ++ stringLiteral serial ++ ") " ++ constant.name ++ "(" ++ arguments ++ ")"

/-- The constants on lines of their own, the last one closed by a semicolon. -/
def constantLines (level : Nat) : List String → List Line
  | [] => []
  | [constant] => [⟨level, constant ++ ";"⟩]
  | constant :: next :: rest => ⟨level, constant ++ ","⟩ :: constantLines level (next :: rest)

def enumDeclaration (p : RenderProfile) (level : Nat) (e : EnumDecl) : Fragment :=
  importing [serializable, serialName]
    ++ docComment level e.description?
    ++ line level "@Serializable"
    ++ line level ("enum class " ++ e.name ++ "(" ++ enumParameters p e ++ ") \x7b")
    ++ { lines := constantLines (level + 1) (e.constants.map (enumConstant e)) }
    ++ line level "\x7d"

/-- The declarations, with an empty line between each two. -/
def spaced : List Fragment → Fragment
  | [] => {}
  | [f] => f
  | f :: g :: rest => f ++ blank ++ spaced (g :: rest)

/-- The end of a declaration, with a body if enums are nested in it. -/
def closing (p : RenderProfile) (header : String) (enums : List EnumDecl) : Fragment :=
  if enums.isEmpty then line 0 header
  else
    line 0 (header ++ " \x7b")
      ++ spaced (enums.map (enumDeclaration p 1))
      ++ line 0 "\x7d"

/-- A field of a data class. -/
def fieldDeclaration (p : RenderProfile) (package : String) (field : FieldDecl) : Fragment :=
  let type := typeText p field.type
  let declaration :=
    if field.nullable then "val " ++ field.name ++ ": " ++ nullable type ++ " = null"
    else "val " ++ field.name ++ ": " ++ type
  importing (refImports package field.type)
    ++ docComment 1 field.description?
    ++ deprecation 1 field.deprecated
    ++ line 1 ("@SerialName(" ++ stringLiteral field.jsonName ++ ") " ++ declaration ++ ",")

/-- The argument for a field when a builder is done. -/
def builtArgument (field : FieldDecl) : String :=
  if field.nullable then field.name ++ " = " ++ field.name ++ ","
  else
    field.name ++ " = requireNotNull(" ++ field.name ++ ") \x7b "
      ++ stringLiteral (field.jsonName ++ " is required") ++ " \x7d,"

/-- The function that takes a block for the builder of a class. -/
def builderFunction (suspending : Bool) (className builder : String) : Fragment :=
  let function := Identifier.propertyName className
  if suspending then
    line 0 ("suspend fun " ++ function ++ "(block: suspend " ++ builder ++ ".() -> Unit): "
        ++ className ++ " \x7b")
      ++ line 1 ("val builder = " ++ builder ++ "()")
      ++ line 1 "builder.block()"
      ++ line 1 "return builder.build()"
      ++ line 0 "\x7d"
  else
    line 0 ("fun " ++ function ++ "(block: " ++ builder ++ ".() -> Unit): " ++ className ++ " = "
      ++ builder ++ "().apply(block).build()")

/-- The builder of a data class. -/
def builderDeclaration (style : Style) (c : ClassDecl) : Fragment :=
  let p := style.profile
  let builder := c.name ++ "Builder"
  let property (field : FieldDecl) : Fragment :=
    line 1 ("var " ++ field.name ++ ": " ++ nullable (typeText p field.type) ++ " = null")
  line 0 ("class " ++ builder ++ " \x7b")
    ++ concat (c.fields.map property)
    ++ blank
    ++ line 1 ("fun build(): " ++ c.name ++ " = " ++ c.name ++ "(")
    ++ concat (c.fields.map fun field => line 2 (builtArgument field))
    ++ line 1 ")"
    ++ line 0 "\x7d"
    ++ blank
    ++ builderFunction style.suspending c.name builder

/-- The declaration of a class of each kind, behind its documentation. -/
def classBody (style : Style) (c : ClassDecl) : Fragment :=
  let p := style.profile
  let parents := supertypes c.sealedParents
  match c.kind with
  | .sealed =>
    line 0 "@Serializable"
      ++ closing p ("sealed interface " ++ c.name ++ parents) c.nestedEnums
  | .plain =>
    line 0 "@Serializable"
      ++ closing p ("class " ++ c.name ++ parents) c.nestedEnums
  | .mapWrapper =>
    let value := (c.mapValue?.map (typeText p)).getD p.types.any
    importing (jvmInline :: c.mapValue?.toList.flatMap (refImports c.package))
      ++ line 0 "@Serializable"
      ++ line 0 "@JvmInline"
      ++ closing p ("value class " ++ c.name ++ "(val values: " ++ mapOf value ++ ")" ++ parents)
        c.nestedEnums
  | .data =>
    importing [serialName]
      ++ line 0 "@Serializable"
      ++ line 0 ("data class " ++ c.name ++ "(")
      ++ concat (c.fields.map (fieldDeclaration p c.package))
      ++ closing p (")" ++ parents) c.nestedEnums
      ++ if style.builders then blank ++ builderDeclaration style c else {}

def classFile (style : Style) (c : ClassDecl) : SourceFile :=
  sourceFile style.profile c.package c.name <|
    importing (serializable :: typeImports c.package c.sealedParents)
      ++ docComment 0 (c.description?.or c.title?)
      ++ deprecation 0 c.deprecated
      ++ classBody style c

/-- An alternative of a sealed class is a class around its value, and any other alias a plain
one. -/
def aliasFile (p : RenderProfile) (a : AliasDecl) : SourceFile :=
  let target := typeText p a.target
  sourceFile p a.package a.name <|
    importing (refImports a.package a.target) ++
      match a.sealedParent? with
      | some parent =>
        importing (serializable :: jvmInline :: typeImport a.package parent)
          ++ line 0 "@Serializable"
          ++ line 0 "@JvmInline"
          ++ line 0 ("value class " ++ a.name ++ "(val value: " ++ target ++ ")"
            ++ supertypes [parent])
      | none => line 0 ("typealias " ++ a.name ++ " = " ++ target)

def enumFile (p : RenderProfile) (e : EnumDecl) : SourceFile :=
  sourceFile p e.package e.name (enumDeclaration p 0 e)

/-- The function for an action. -/
def methodDeclaration (p : RenderProfile) (package : String) (m : ActionMethod) : Fragment :=
  let input := (m.input?.map fun type => "input: " ++ typeText p type).getD ""
  let output := (m.output?.map fun type => ": " ++ typeText p type).getD ""
  importing (m.input?.toList.flatMap (refImports package))
    ++ importing (m.output?.toList.flatMap (refImports package))
    ++ docComment 1 m.description?
    ++ line 1 ("suspend fun " ++ m.name ++ "(" ++ input ++ ")" ++ output)

def interfaceFile (p : RenderProfile) (i : ActionInterface) : SourceFile :=
  let actionEnum := i.actionEnum.localName
  sourceFile p i.package i.name <|
    importing (typeImport i.package i.actionEnum)
      ++ line 0 ("interface " ++ i.name ++ " \x7b")
      ++ concat (i.methods.map (methodDeclaration p i.package))
      ++ blank
      ++ line 1 ("val supportedActions: Set<" ++ actionEnum ++ ">")
      ++ line 2 ("get() = " ++ actionEnum ++ ".entries.toSet()")
      ++ line 0 "\x7d"

/-- The files for declared types and action interfaces. -/
def catalogFiles (style : Style) (c : Catalog) (interfaces : List ActionInterface) :
    List SourceFile :=
  c.classes.classes.values.map (classFile style)
    ++ c.classes.aliases.values.map (aliasFile style.profile)
    ++ c.enums.separate.values.map (enumFile style.profile)
    ++ interfaces.map (interfaceFile style.profile)

end Kotlin

/-- The source files of a model. -/
def GeneratedModel.sourceFiles (m : GeneratedModel) (style : Kotlin.Style) : List SourceFile :=
  Kotlin.catalogFiles style m.catalog m.interfaces

end ThingTypes
