import ThingTypes.Settings.Value
import ThingTypes.Text.Split

/-
  Paths to settings, such as `output.package` or `rules[0].name`: a name, and then names behind
  points and places of list items in brackets. A value is put at the end of a path whatever stands
  on the way to it, which is made a table or a list where a step needs one.
-/

namespace ThingTypes

/-- A step to a value below another one. -/
inductive KeyStep where
  /-- To the value under a key. -/
  | key (name : String)
  /-- To an item of a list. A negative index counts from the end. -/
  | item (index : Int)
deriving Repr, DecidableEq, Inhabited

abbrev KeyPath := List KeyStep

namespace KeyPath

def isNameChar (c : Char) : Bool :=
  c.isAlphanum || c = ' ' || c = '_' || c = '-'

def isBlank (c : Char) : Bool := c = ' ' || c = '\t'

/-- The index in brackets, of which the opening one is gone. Blanks around it do not count. -/
def index? (cs : List Char) : Option Int := do
  let (word, rest) := (cs.dropWhile isBlank).span fun c => c.isDigit || c = '-'
  let (negative, digits) := match word with
    | '-' :: digits => (true, digits)
    | digits => (false, digits)
  let index := Text.withSign negative (← Text.natural? 10 digits)
  if rest.dropWhile isBlank = [']'] ∧ SettingsValue.fitsInteger index then some index else none

/-- The steps of what stands between two points: a name, and indices in brackets. -/
def stepsBetweenPoints? (cs : List Char) : Option KeyPath :=
  match Text.splitOn (· == '[') cs with
  | name :: indices =>
    if name.isEmpty || !name.all isNameChar then none
    else do return .key (String.ofList name) :: (← indices.mapM index?).map .item
  | [] => none

def ofText? (text : String) : Option KeyPath := do
  let pieces ← (Text.splitOn (· == '.') text.toList).mapM stepsBetweenPoints?
  return pieces.flatten

/-- The path that a text writes. A text that writes none is itself one key. -/
def ofText (text : String) : KeyPath :=
  (ofText? text).getD [.key text]

end KeyPath

namespace SettingsValue

/-- A list that has an item at an index, and its place. Items that are missing become `nil`, behind
the others or, for an index that counts from the end, in front of them. -/
def reach (index : Int) (items : List SettingsValue) : List SettingsValue × Nat :=
  let missing (n : Nat) : List SettingsValue := List.replicate (n - items.length) nil
  if 0 ≤ index then (items ++ missing (index.toNat + 1), index.toNat)
  else (missing index.natAbs ++ items, items.length - index.natAbs)

/-- Puts a value at the end of a path. A table at the last key is merged with it. -/
def putAt (new : SettingsValue) : KeyPath → SettingsValue → SettingsValue
  | [], _ => new
  | [.key name], old => table (put (foldCase name) old.entries new)
  | .key name :: steps, old =>
    let below := (Entries.get? (foldCase name) old.entries).getD nil
    table (Entries.insert (foldCase name) (putAt new steps below) old.entries)
  | .item index :: steps, old =>
    let (items, place) := reach index old.items
    list (items.modify place (putAt new steps))

end SettingsValue

end ThingTypes
