import ThingTypes.Json.Basic

/-
  The scalar types of schemas, and which of them a JSON value has. A number is an integer only if
  it is written as one.
-/

namespace ThingTypes

inductive ScalarKind where
  | boolean
  | integer
  | number
  | string
deriving Repr, DecidableEq, Inhabited

namespace ScalarKind

/-- The name of the type in a schema. -/
def typeName : ScalarKind → String
  | boolean => "boolean"
  | integer => "integer"
  | number => "number"
  | string => "string"

/-- The scalar type of a value, if it is a scalar. -/
def ofJson? : Json → Option ScalarKind
  | .bool _ => some boolean
  | .number (.integer _) => some integer
  | .number (.real _) => some number
  | .string _ => some string
  | _ => none

/-- Whether values of type `actual` may stand where `expected` is declared. -/
def accepts (expected actual : ScalarKind) : Bool :=
  expected = actual || (expected = number && actual = integer)

end ScalarKind

end ThingTypes
