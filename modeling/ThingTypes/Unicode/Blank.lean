import ThingTypes.Unicode.CodeSet

/-
  White space: the characters with the property White_Space, which trimming takes off the ends
  of a title or a description.
-/

namespace ThingTypes.Unicode

/-- The characters with the property White_Space. -/
def whiteSpace : CodeSet := ⟨[
  0x9, 0xe, 0x20, 0x21, 0x85, 0x86, 0xa0, 0xa1, 0x1680, 0x1681, 0x2000, 0x200b, 0x2028, 0x202a,
  0x202f, 0x2030, 0x205f, 0x2060, 0x3000, 0x3001]⟩

def isBlank (c : Char) : Bool :=
  whiteSpace.contains c

/-- Without the white space at its end. -/
def trimEnd (cs : List Char) : List Char :=
  (cs.reverse.dropWhile isBlank).reverse

/-- Without the white space at either end. -/
def trim (cs : List Char) : List Char :=
  trimEnd (cs.dropWhile isBlank)

end ThingTypes.Unicode
