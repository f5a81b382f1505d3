import ThingTypes.Json.Record
import ThingTypes.Schema.Scalar

/-
  The rendering profile: how scalar types are spelled in the target language, and the layout of its
  files. Nothing here has an influence on which types are declared.
-/

namespace ThingTypes

/-- The target types of scalars. -/
structure ScalarTypes where
  string : String := "String"
  integer : String := "Long"
  number : String := "Double"
  boolean : String := "Boolean"
  /-- Any JSON value at all, also where there is none. -/
  any : String := "kotlinx.serialization.json.JsonElement"
deriving Repr, DecidableEq, Inhabited

structure RenderProfile where
  types : ScalarTypes := {}
  /-- The extension of source files. -/
  extension : String := "kt"
  /-- One level of indentation. -/
  indent : String := "    "
deriving Repr, DecidableEq, Inhabited

namespace RenderProfile

def scalarType (p : RenderProfile) : ScalarKind → String
  | .string => p.types.string
  | .integer => p.types.integer
  | .number => p.types.number
  | .boolean => p.types.boolean

def indentation (p : RenderProfile) (level : Nat) : String :=
  String.join (List.replicate level p.indent)

/-- Reads a profile, all of whose fields must be given. -/
def ofJson? (j : Json) : Option RenderProfile := do
  let fields ← Json.record? ["types", "extension", "indent"] j
  let types ← Json.field? fields 0 scalarTypes?
  let extension ← Json.field? fields 1 Json.string?
  let indent ← Json.field? fields 2 Json.string?
  return { types, extension, indent }
where
  scalarTypes? (j : Json) : Option ScalarTypes := do
    let fields ← Json.record? ["string", "integer", "number", "boolean", "any"] j
    let string ← Json.field? fields 0 Json.string?
    let integer ← Json.field? fields 1 Json.string?
    let number ← Json.field? fields 2 Json.string?
    let boolean ← Json.field? fields 3 Json.string?
    let any ← Json.field? fields 4 Json.string?
    return { string, integer, number, boolean, any }

end RenderProfile

namespace Kotlin

/-- The type that also admits `null`. -/
def nullable (type : String) : String :=
  if type.toList.getLast? = some '?' then type else type ++ "?"

def listOf (item : String) : String :=
  "List<" ++ item ++ ">"

def mapOf (value : String) : String :=
  "Map<String, " ++ value ++ ">"

/-- A character inside a string literal. A dollar sign would start a template. -/
def literalChar (c : Char) : List Char :=
  if c = '"' then ['\\', '"']
  else if c = '\\' then ['\\', '\\']
  else if c = '$' then ['\\', '$']
  else if c = '\n' then ['\\', 'n']
  else if c = '\r' then ['\\', 'r']
  else if c = '\t' then ['\\', 't']
  else [c]

def stringLiteral (s : String) : String :=
  String.ofList ('"' :: (s.toList.flatMap literalChar ++ ['"']))

end Kotlin

end ThingTypes
