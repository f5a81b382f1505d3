import ThingTypes.Error
import ThingTypes.Text.Split

/-
  Package names: one or more segments joined by dots, each a word of small letters, digits and
  underscores that does not start with a digit. The letters are those of ASCII.
-/

namespace ThingTypes.Package

def isSegmentStart (c : Char) : Bool :=
  c.isLower || c = '_'

def isSegment : List Char → Bool
  | [] => false
  | c :: cs => isSegmentStart c && cs.all fun c => isSegmentStart c || c.isDigit

def isValid (package : String) : Bool :=
  (Text.splitOn (· == '.') package.toList).all isSegment

/-- Refuses anything but a package name. -/
def check (package : String) : Except GenerationError Unit :=
  if isValid package then .ok () else .error (.invalidPackage package)

/-- The package one segment deeper. -/
def child (package segment : String) : String :=
  package ++ "." ++ segment

end ThingTypes.Package
