import ThingTypes.Schema.Reader
import ThingTypes.Json.Pointer
import ThingTypes.Location

/-
  Embedded references. An object with a member `tm:ref` stands for a fragment of some document:
  the value of the member names the document, empty for the one at hand, and a JSON pointer into
  it, with exactly one `#` between them. `Json.referenceSites` finds such objects, and
  `Json.rebased` adapts the references of a fragment that moves to another document.
-/

namespace ThingTypes

structure ModelReference where
  /-- The document, `none` for the one the reference stands in. -/
  document? : Option String
  pointer : String
deriving Repr, DecidableEq

namespace ModelReference

def delimiter : Char := '#'

def ofText (value : String) : Except GenerationError ModelReference :=
  match Text.splitOn (· == delimiter) value.toList with
  | [document, pointer] =>
    .ok
      { document? := if document.isEmpty then none else some (String.ofList document)
        pointer := String.ofList pointer }
  | _ => .error (.malformedReference value)

/-- The text of a reference to a named document. -/
def text (document pointer : String) : String :=
  document ++ "#" ++ pointer

/-- The location of the document that a reference in the document at `base` names. -/
def target (r : ModelReference) (base : String) : String :=
  match r.document? with
  | some document => Location.resolve base document
  | none => base

/-- The text that a reference gets when it moves from the document at `origin` to the one at
`base`: it keeps naming the same place. A text that is no reference stays. -/
def rebase (origin base value : String) : String :=
  match ofText value with
  | .ok r => text (Location.relativize base (r.target origin)) r.pointer
  | .error _ => value

end ModelReference

/-- An object that carries a reference. -/
structure ReferenceSite where
  /-- The pointer to the object. -/
  parentPath : String
  /-- The value of its marker. -/
  reference : String
deriving Repr, DecidableEq

namespace Json

mutual

/-- The sites at or below `path`, depth first in document order. An object that carries a reference
is replaced as a whole, so nothing below it is a site. -/
def sitesAt (path : String) : Json → List ReferenceSite
  | object members =>
    match Entries.get? modelRefKey members with
    | some marker => [⟨path, marker.asText⟩]
    | none => sitesInMembers path members
  | array items => sitesInItems path 0 items
  | _ => []

def sitesInMembers (path : String) : List (String × Json) → List ReferenceSite
  | [] => []
  | (key, j) :: rest => sitesAt (Pointer.child path key) j ++ sitesInMembers path rest

def sitesInItems (path : String) (index : Nat) : List Json → List ReferenceSite
  | [] => []
  | j :: rest => sitesAt (Pointer.item path index) j ++ sitesInItems path (index + 1) rest

end

def referenceSites (document : Json) : List ReferenceSite :=
  sitesAt "" document

mutual

/-- A fragment of the document at `origin`, with its references adapted to the document at
`base`. Below an object that carries a reference nothing is changed. -/
def rebased (origin base : String) : Json → Json
  | object members =>
    match Entries.get? modelRefKey members with
    | some (string value) =>
      object (Entries.insert modelRefKey (string (ModelReference.rebase origin base value)) members)
    | _ => object (rebasedMembers origin base members)
  | array items => array (rebasedItems origin base items)
  | j => j

def rebasedMembers (origin base : String) : List (String × Json) → List (String × Json)
  | [] => []
  | (key, j) :: rest => (key, rebased origin base j) :: rebasedMembers origin base rest

def rebasedItems (origin base : String) : List Json → List Json
  | [] => []
  | j :: rest => rebased origin base j :: rebasedItems origin base rest

end

/-- An object without its reference marker, in whose place the last member moves. -/
def withoutMarker : Json → Json
  | object members => object (Entries.swapRemove modelRefKey members)
  | j => j

end Json

end ThingTypes
