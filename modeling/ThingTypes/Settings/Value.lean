import ThingTypes.Decimal.Shortest
import ThingTypes.Entries
import ThingTypes.Text.Digits
import ThingTypes.Unicode.CaseMapping

/-
  Values of settings, before anything is known about which settings there are: scalars, lists and
  tables. Tables are layered over one another, and scalars are converted with some leniency when
  a setting is read from them.
-/

namespace ThingTypes

-- Powers are those of the core library, whatever is imported besides.
attribute [local instance (high)] instPowNat

/-- A floating-point number or one of its limits. -/
inductive FloatValue where
  | finite (x : Binary64)
  | infinite (negative : Bool)
  | notANumber
deriving Repr, DecidableEq, Inhabited

inductive SettingsValue where
  /-- What stands where no value was given. -/
  | nil
  | bool (b : Bool)
  | integer (n : Int)
  | float (x : FloatValue)
  | text (s : String)
  | list (items : List SettingsValue)
  | table (entries : List (String × SettingsValue))
deriving Repr, Inhabited

namespace FloatValue

/-- The fewest digits that read back, never with an exponent. -/
def layout : DecimalLayout where
  leastPositional := -400
  greatestPositional := 400
  wholeFraction := false

def render : FloatValue → String
  | finite x => String.ofList (layout.text x)
  | infinite false => "inf"
  | infinite true => "-inf"
  | notANumber => "NaN"

def isZero : FloatValue → Bool
  | finite x => x.isZero
  | _ => false

/-- The nearest whole number that fits 64 bits without a sign; a half goes up. -/
def toSize : FloatValue → Nat
  | finite x =>
    if x.negative then 0
    else
      let (num, den) := x.ratio
      min ((2 * num + den) / (2 * den)) (2 ^ (64 : Nat) - 1)
  | infinite false => 2 ^ (64 : Nat) - 1
  | infinite true | notANumber => 0

/-- The digits around a point, taken as one number with the places behind the point. -/
def mantissa? (text : List Char) : Option (Nat × Nat) :=
  let (whole, rest) := text.span Char.isDigit
  let fraction? := match rest with
    | [] => some []
    | '.' :: digits => some digits
    | _ => none
  fraction?.bind fun fraction =>
    (Text.natural? 10 (whole ++ fraction)).map fun value => (value, fraction.length)

/-- The number nearest to a decimal numeral without a sign. -/
def magnitude? (text : List Char) : Option FloatValue :=
  let lower := text.map Char.toLower
  if lower = "inf".toList ∨ lower = "infinity".toList then some (.infinite false)
  else if lower = "nan".toList then some .notANumber
  else
    let (front, back) := text.span fun c => c != 'e' && c != 'E'
    let exponent? := match back with
      | [] => some 0
      | _ :: digits => Text.integer? digits
    match mantissa? front, exponent? with
    | some (value, places), some exponent =>
      match Binary64.ofDecimal? value (exponent - places) with
      | some x => some (.finite x)
      | none => some (.infinite false)
    | _, _ => none

def negate : FloatValue → FloatValue
  | finite x => finite x.neg
  | infinite negative => infinite !negative
  | notANumber => notANumber

def ofText? : List Char → Option FloatValue
  | '-' :: text => (magnitude? text).map negate
  | '+' :: text => magnitude? text
  | text => magnitude? text

end FloatValue

namespace SettingsValue

/-- A text where letter case does not matter: all in lower case. -/
def foldCase (s : String) : String :=
  String.ofList (Unicode.lowercase s.toList)

/-- Whether an integer fits 64 bits with a sign. -/
def fitsInteger (n : Int) : Bool :=
  -2 ^ (63 : Nat) ≤ n && n < 2 ^ (63 : Nat)

/-- The value that a bare text stands for: a truth value, a number, or the text itself. -/
def ofText (s : String) : SettingsValue :=
  let lower := foldCase s
  if lower = "true" then .bool true
  else if lower = "false" then .bool false
  else
    match (Text.integer? s.toList).filter fitsInteger with
    | some n => .integer n
    | none =>
      match FloatValue.ofText? s.toList with
      | some x => .float x
      | none => .text s

mutual

/-- Puts a value under a key. Tables are merged, and any other value replaces what was there. -/
def put (key : String) (entries : List (String × SettingsValue)) :
    SettingsValue → List (String × SettingsValue)
  | .table [] => if (Entries.get? key entries).isSome then entries
    else Entries.insert key (.table []) entries
  | .table (e :: rest) =>
    let below := match Entries.get? key entries with
      | some (.table below) => below
      | _ => []
    Entries.insert key (.table (putAll below (e :: rest))) entries
  | value => Entries.insert key value entries

/-- Puts all entries over those that are there. -/
def putAll (entries : List (String × SettingsValue)) :
    List (String × SettingsValue) → List (String × SettingsValue)
  | [] => entries
  | (key, value) :: rest => putAll (put (foldCase key) entries value) rest

end

/-- The entries of a value, none unless it is a table. -/
def entries : SettingsValue → List (String × SettingsValue)
  | table entries => entries
  | _ => []

/-- The items of a value, none unless it is a list. -/
def items : SettingsValue → List SettingsValue
  | list items => items
  | _ => []

def toBool? : SettingsValue → Option Bool
  | bool b => some b
  | integer n => some (n != 0)
  | float x => some !x.isZero
  | text s =>
    let lower := foldCase s
    if ["1", "true", "on", "yes"].contains lower then some true
    else if ["0", "false", "off", "no"].contains lower then some false
    else none
  | nil | list _ | table _ => none

/-- A text as a whole number that fits 64 bits, or a truth value as one. -/
def sizeOfText? (s : String) : Option Nat :=
  let lower := foldCase s
  if ["true", "on", "yes"].contains lower then some 1
  else if ["false", "off", "no"].contains lower then some 0
  else
    let digits := match s.toList with
      | '+' :: digits => digits
      | digits => digits
    (Text.natural? 10 digits).filter (· < 2 ^ (64 : Nat))

def toSize? : SettingsValue → Option Nat
  | bool b => some (if b then 1 else 0)
  | integer n => if 0 ≤ n then some n.toNat else none
  | float x => some x.toSize
  | text s => sizeOfText? s
  | nil | list _ | table _ => none

def toText? : SettingsValue → Option String
  | bool b => some (if b then "true" else "false")
  | integer n => some (toString n)
  | float x => some x.render
  | text s => some s
  | nil | list _ | table _ => none

/-- A choice between names: a text, or the only key of a table. Letter case does not matter. -/
def toChoice? {α : Type} (options : List (String × α)) : SettingsValue → Option α
  | text s => byName? s
  | table [(key, _)] => byName? key
  | _ => none
where
  byName? (s : String) : Option α :=
    Entries.get? (foldCase s) options

/-- No value, or one that is converted. -/
def toOption? {α : Type} (convert : SettingsValue → Option α) : SettingsValue → Option (Option α)
  | nil => some none
  | value => (convert value).map some

/-- A group of settings with the given keys: a table, or a list of their values in that order. The
list may end early, and what stands behind its last setting does not count. -/
def toGroup? (keys : List String) : SettingsValue → Option (List (String × SettingsValue))
  | table entries => some entries
  | list items => some (keys.zip items)
  | _ => none

end SettingsValue

end ThingTypes
