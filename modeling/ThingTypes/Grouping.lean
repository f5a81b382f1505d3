import ThingTypes.Entries

/-
  Grouping by category. Categories keep the order in which they are first seen, and entries keep
  their order within their category and among those without one.
-/

namespace ThingTypes

universe u

structure CategoryGroups (α : Type u) where
  grouped : OrderedMap String (List α) := ∅
  ungrouped : List α := []

namespace CategoryGroups

variable {α : Type u}

/-- Puts one more entry at the end of its category, or of the entries without one. -/
def add (g : CategoryGroups α) (category? : Option String) (a : α) : CategoryGroups α :=
  match category? with
  | some category =>
    { g with grouped := g.grouped.insert category ((g.grouped.get? category).getD [] ++ [a]) }
  | none => { g with ungrouped := g.ungrouped ++ [a] }

def ofList (categoryOf : α → Option String) (l : List α) : CategoryGroups α :=
  l.foldl (fun g a => g.add (categoryOf a) a) {}

def categories (g : CategoryGroups α) : List String :=
  g.grouped.keys

def size (g : CategoryGroups α) : Nat :=
  g.grouped.values.flatten.length + g.ungrouped.length

def isEmpty (g : CategoryGroups α) : Bool :=
  g.size == 0

end CategoryGroups

end ThingTypes
