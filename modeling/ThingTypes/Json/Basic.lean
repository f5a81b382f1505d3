import ThingTypes.Entries
import ThingTypes.Decimal.Binary64

/-
  JSON values. An object keeps its members in document order. A number is an integer when its
  text is an integer that fits 64 bits, signed or unsigned, and a binary64 number otherwise, so
  `1` and `1.0` are different values.
-/

namespace ThingTypes

-- Powers are those of the core library, whatever is imported besides.
attribute [local instance (high)] instPowNat

inductive JsonNumber where
  | integer (n : Int)
  | real (x : Binary64)
deriving Repr, DecidableEq

inductive Json where
  | null
  | bool (b : Bool)
  | number (n : JsonNumber)
  | string (s : String)
  | array (items : List Json)
  | object (members : List (String × Json))
deriving Repr, Inhabited

namespace Json

def int (n : Int) : Json := .number (.integer n)

def strings (l : List String) : Json := .array (l.map .string)

def isNull : Json → Bool
  | null => true
  | _ => false

def string? : Json → Option String
  | string s => some s
  | _ => none

def bool? : Json → Option Bool
  | bool b => some b
  | _ => none

def array? : Json → Option (List Json)
  | array items => some items
  | _ => none

def members? : Json → Option (List (String × Json))
  | object members => some members
  | _ => none

/-- The member `key` of an object. -/
def get? (j : Json) (key : String) : Option Json :=
  j.members?.bind (Entries.get? key)

/-- An integer from zero to the greatest 64-bit one. -/
def size? : Json → Option Nat
  | number (.integer n) => if 0 ≤ n ∧ n < 2 ^ (64 : Nat) then some n.toNat else none
  | _ => none

end Json

end ThingTypes
