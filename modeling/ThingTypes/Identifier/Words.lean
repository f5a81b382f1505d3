import ThingTypes.Unicode.Alphanumeric
import ThingTypes.Unicode.LetterCase
import ThingTypes.Text.Split

/-
  Words of an identifier. Everything but letters and numerals separates; inside a run of those a
  word starts at a capital after a small letter or a digit (`batteryLevel`), and at the last
  capital of a row when a small letter follows it (`HTTPServer`).
-/

namespace ThingTypes.Identifier

/-- Whether a word starts at `c`, between `previous` and what comes next. -/
def startsWord (previous c : Char) (next? : Option Char) : Bool :=
  Unicode.isUppercase c &&
    (Unicode.isLowercase previous || previous.isDigit ||
      (Unicode.isUppercase previous && next?.any Unicode.isLowercase))

/-- Cuts a run of letters and numerals where words start. -/
def splitCase : List Char → List (List Char)
  | [] => []
  | [c] => [[c]]
  | c :: d :: rest =>
    let words := splitCase (d :: rest)
    if startsWord c d rest.head? then [c] :: words
    else match words with
      | [] => [[c]]
      | word :: words => (c :: word) :: words

/-- The words of a text, in order. -/
def words (cs : List Char) : List (List Char) :=
  (Text.splitOn (!Unicode.isAlphanumeric ·) cs).flatMap splitCase

def splitWords (s : String) : List String :=
  (words s.toList).map String.ofList

end ThingTypes.Identifier
