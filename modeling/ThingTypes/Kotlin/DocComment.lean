import ThingTypes.Text.Split
import ThingTypes.Unicode.Blank

/-
  Documentation comments. Block comments nest, so a description is changed where it would end the
  comment: the slash of each `*/` is written as a character reference.
-/

namespace ThingTypes.Kotlin

/-- The slash as a character reference. -/
def slashReference : List Char := ['&', '#', '4', '7', ';']

/-- The text without anything that ends a comment. -/
def withoutCommentEnd : List Char → List Char
  | '*' :: '/' :: cs => '*' :: (slashReference ++ withoutCommentEnd cs)
  | c :: cs => c :: withoutCommentEnd cs
  | [] => []

/-- The lines of a comment with a description. A blank description has no comment. -/
def docLines (description? : Option String) : List String :=
  let text := Unicode.trim ((description?.getD "").toList)
  if text.isEmpty then []
  else match Text.lines (withoutCommentEnd text) with
    | [line] => ["/** " ++ String.ofList line ++ " */"]
    | lines =>
      ["/**"]
        ++ lines.map (fun line => String.ofList (Unicode.trimEnd ([' ', '*', ' '] ++ line)))
        ++ [" */"]

end ThingTypes.Kotlin
