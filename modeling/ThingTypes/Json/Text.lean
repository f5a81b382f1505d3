import ThingTypes.Json.Basic
import ThingTypes.Decimal.Shortest
import ThingTypes.Sorted

/-
  The text of JSON values. `render` writes a value without any blanks; `canonical` first sorts
  the members of every object by key, so that it does not depend on their order.
-/

namespace ThingTypes

/-- Numbers that are not integers always show a fraction or an exponent: positional from
`0.00001` up to sixteen digits before the point, otherwise as `d.dde+x`. -/
def JsonNumber.layout : DecimalLayout where
  leastPositional := -5
  greatestPositional := 15
  wholeFraction := true

def JsonNumber.render : JsonNumber → List Char
  | integer n => (toString n).toList
  | real x => JsonNumber.layout.text x

namespace Json

/-- A character inside a string. Quotes, backslashes and control characters are escaped, all
else stands for itself. -/
def escape (c : Char) : List Char :=
  if c = '"' then ['\\', '"']
  else if c = '\\' then ['\\', '\\']
  else if c = '\n' then ['\\', 'n']
  else if c = '\r' then ['\\', 'r']
  else if c = '\t' then ['\\', 't']
  else if c = '\x08' then ['\\', 'b']
  else if c = '\x0c' then ['\\', 'f']
  else if c.toNat < 0x20 then
    ['\\', 'u', '0', '0', Nat.digitChar (c.toNat / 16), Nat.digitChar (c.toNat % 16)]
  else [c]

def renderString (s : String) : List Char :=
  '"' :: (s.toList.flatMap escape ++ ['"'])

mutual

/-- The text of a value, without blanks. -/
def render : Json → List Char
  | null => ['n', 'u', 'l', 'l']
  | bool true => ['t', 'r', 'u', 'e']
  | bool false => ['f', 'a', 'l', 's', 'e']
  | number n => n.render
  | string s => renderString s
  | array items => '[' :: (renderItems items ++ [']'])
  | object members => '{' :: (renderMembers members ++ ['}'])

def renderItems : List Json → List Char
  | [] => []
  | [j] => render j
  | j :: k :: rest => render j ++ ',' :: renderItems (k :: rest)

def renderMembers : List (String × Json) → List Char
  | [] => []
  | [(key, j)] => renderString key ++ ':' :: render j
  | (key, j) :: m :: rest =>
    renderString key ++ ':' :: (render j ++ ',' :: renderMembers (m :: rest))

end

def compact (j : Json) : String :=
  String.ofList j.render

/-- The order of members by key. -/
def memberLE (a b : String × Json) : Bool :=
  textLE a.1 b.1

mutual

/-- The value with the members of every object sorted by key. -/
def sorted : Json → Json
  | null => null
  | bool b => bool b
  | number n => number n
  | string s => string s
  | array items => array (sortedItems items)
  | object members => object (sortBy memberLE (sortedMembers members))

def sortedItems : List Json → List Json
  | [] => []
  | j :: rest => sorted j :: sortedItems rest

def sortedMembers : List (String × Json) → List (String × Json)
  | [] => []
  | (key, j) :: rest => (key, sorted j) :: sortedMembers rest

end

/-- The text of a value with all keys in order. -/
def canonical (j : Json) : String :=
  j.sorted.compact

end Json

end ThingTypes
