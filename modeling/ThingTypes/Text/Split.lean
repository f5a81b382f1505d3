/-
  Taking texts apart. Texts are lists of characters here; `splitOn` cuts at every separator and
  keeps empty pieces, `splitAtFirst?` cuts at the first occurrence of a pattern.
-/

namespace ThingTypes.Text

/-- The pieces between the separators. A text without a separator is one piece. -/
def splitOn (isSeparator : Char → Bool) : List Char → List (List Char)
  | [] => [[]]
  | c :: cs =>
    if isSeparator c then [] :: splitOn isSeparator cs
    else match splitOn isSeparator cs with
      | [] => [[c]]
      | piece :: pieces => (c :: piece) :: pieces

/-- The text before and the text after the first occurrence of `pattern`. -/
def splitAtFirst? (pattern : List Char) : List Char → Option (List Char × List Char)
  | [] => if pattern.isEmpty then some ([], []) else none
  | c :: cs =>
    match pattern.isPrefixOf? (c :: cs) with
    | some rest => some ([], rest)
    | none => (splitAtFirst? pattern cs).map fun (before, rest) => (c :: before, rest)

/-- Whether `pattern` occurs in the text. -/
def occursIn (pattern cs : List Char) : Bool :=
  (splitAtFirst? pattern cs).isSome

/-- The text before and the text after the last `mark`. -/
def splitAtLast? (mark : Char) : List Char → Option (List Char × List Char)
  | [] => none
  | c :: cs =>
    match splitAtLast? mark cs with
    | some (before, rest) => some (c :: before, rest)
    | none => if c = mark then some ([], cs) else none

/-- The lines of a text. A line ends at a line feed or at the end of the text, and gives up one
carriage return before its end; a last line that is empty does not count. -/
def lines (cs : List Char) : List (List Char) :=
  let pieces := splitOn (· == '\n') cs
  let ended := pieces.dropLast.map dropReturn
  match pieces.getLast? with
  | none | some [] => ended
  | some last => ended ++ [last]
where
  dropReturn (line : List Char) : List Char :=
    if line.getLast? = some '\r' then line.dropLast else line

end ThingTypes.Text
