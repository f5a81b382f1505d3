/-
  Sorting by insertion. The lists that get sorted here are short: the keys of an object, the
  members of a type, the imports of a file. `le` decides whether its first argument may come first.
-/

namespace ThingTypes

universe u
variable {α : Type u}

/-- Puts `a` in front of the first element that may come after it. -/
def insertSorted (le : α → α → Bool) (a : α) : List α → List α
  | [] => [a]
  | b :: l => if le a b then a :: b :: l else b :: insertSorted le a l

/-- The elements in order; equal ones keep their order. -/
def sortBy (le : α → α → Bool) (l : List α) : List α :=
  l.foldr (insertSorted le) []

/-- The order of texts by code points, which is also the order of their UTF-8 bytes. -/
def textLE (a b : String) : Bool :=
  !decide (b < a)

/-- The texts in ascending order, each once. -/
def ascending (l : List String) : List String :=
  dropRepeats (sortBy textLE l)
where
  dropRepeats : List String → List String
    | [] => []
    | [a] => [a]
    | a :: b :: l => if a = b then dropRepeats (b :: l) else a :: dropRepeats (b :: l)

end ThingTypes
