import ThingTypes.Json.Basic
import ThingTypes.Text.Digits
import ThingTypes.Text.Split

/-
  JSON pointers (RFC 6901). A pointer is empty or a sequence of tokens, each after a slash; in a
  token `~1` stands for a slash and `~0` for a tilde. It designates a member of an object by key
  and an element of an array by its index, written without sign or leading zeros.
-/

namespace ThingTypes

namespace Pointer

/-- A token as it is written. -/
def escape : List Char → List Char
  | [] => []
  | c :: cs =>
    if c = '~' then '~' :: '0' :: escape cs
    else if c = '/' then '~' :: '1' :: escape cs
    else c :: escape cs

/-- The token that a written one stands for. -/
def unescape : List Char → List Char
  | '~' :: '0' :: cs => '~' :: unescape cs
  | '~' :: '1' :: cs => '/' :: unescape cs
  | c :: cs => c :: unescape cs
  | [] => []

/-- The tokens of a pointer, or `none` if it neither is empty nor starts with a slash. -/
def tokens? (pointer : String) : Option (List String) :=
  match pointer.toList with
  | [] => some []
  | '/' :: cs =>
    some ((Text.splitOn (· == '/') cs).map fun token => String.ofList (unescape token))
  | _ => none

/-- The pointer one token deeper. -/
def child (pointer token : String) : String :=
  pointer ++ "/" ++ String.ofList (escape token.toList)

/-- The pointer one array index deeper. -/
def item (pointer : String) (index : Nat) : String :=
  pointer ++ "/" ++ toString index

/-- The value of a digit string as an array index. -/
def index? (token : String) : Option Nat :=
  let digits := token.toList
  if digits.head? = some '0' && digits.length != 1 then none
  else Text.natural? 10 digits

end Pointer

namespace Json

/-- The part of a value one token deeper. -/
def step? (token : String) : Json → Option Json
  | object members => Entries.get? token members
  | array items => (Pointer.index? token).bind (items[·]?)
  | _ => none

def follow? (j : Json) : List String → Option Json
  | [] => some j
  | token :: tokens => (j.step? token).bind (follow? · tokens)

/-- What a pointer designates. -/
def pointer? (j : Json) (pointer : String) : Option Json :=
  (Pointer.tokens? pointer).bind j.follow?

/-- Puts `part` in the place of the member or element that `token` designates. -/
def putStep (token : String) (part : Json) : Json → Json
  | object members => object (Entries.insert token part members)
  | array items =>
    match Pointer.index? token with
    | some i => array (items.set i part)
    | none => array items
  | j => j

/-- Replaces the part at the end of the tokens, if there is one. -/
def putAt? (part : Json) (j : Json) : List String → Option Json
  | [] => some part
  | token :: tokens => do
    let inner ← j.step? token
    let changed ← putAt? part inner tokens
    return putStep token changed j

/-- Replaces what a pointer designates, if it designates anything. -/
def replace? (j : Json) (pointer : String) (part : Json) : Option Json :=
  (Pointer.tokens? pointer).bind (putAt? part j)

end Json

end ThingTypes
