/-
  Sets of characters as boundary lists. The code points at which membership changes are listed in
  increasing order, the first one entering the set. This is how the tables of character
  properties beside this file are written down.
-/

namespace ThingTypes.Unicode

/-- A set of code points, given by the points at which membership flips. -/
structure CodeSet where
  boundaries : List Nat
deriving Repr, DecidableEq

/-- Whether an odd number of the boundaries, taken in order, is at most `n`. -/
def insideBoundaries : List Nat → Nat → Bool
  | [], _ => false
  | b :: bs, n => if n < b then false else !insideBoundaries bs n

def CodeSet.contains (s : CodeSet) (c : Char) : Bool :=
  insideBoundaries s.boundaries c.toNat

end ThingTypes.Unicode
