import ThingTypes.ThingModel.Basic
import ThingTypes.Json.Record

/-
  Reading Thing Models from JSON. Unknown members are ignored; a member of the wrong type makes
  the whole document invalid. The schemas of properties and payloads are kept as they are.
-/

namespace ThingTypes

open Json (record? field? fieldD? nullable? listOf? mapOf?)

namespace Link

def fieldNames : List String := ["rel", "href", "instanceName", "type"]

def ofJson? (j : Json) : Option Link := do
  let fields ← record? fieldNames j
  let relation? ← fieldD? fields 0 none (nullable? Json.string?)
  let href ← field? fields 1 Json.string?
  let instanceName? ← fieldD? fields 2 none (nullable? Json.string?)
  let mediaType? ← fieldD? fields 3 none (nullable? Json.string?)
  return { relation?, href, instanceName?, mediaType? }

end Link

namespace ActionAffordance

def fieldNames : List String := ["title", "description", "input", "output"]

def ofJson? (j : Json) : Option ActionAffordance := do
  let fields ← record? fieldNames j
  let title? ← fieldD? fields 0 none (nullable? Json.string?)
  let description? ← fieldD? fields 1 none (nullable? Json.string?)
  let input? ← fieldD? fields 2 none (nullable? some)
  let output? ← fieldD? fields 3 none (nullable? some)
  return { title?, description?, input?, output? }

end ActionAffordance

namespace ThingModel

def fieldNames : List String :=
  ["title", "description", "properties", "actions", "links", "tm:optional"]

def ofJson? (j : Json) : Option ThingModel := do
  let fields ← record? fieldNames j
  let title? ← fieldD? fields 0 none (nullable? Json.string?)
  let description? ← fieldD? fields 1 none (nullable? Json.string?)
  let properties ← fieldD? fields 2 ∅ (mapOf? some)
  let actions ← fieldD? fields 3 ∅ (mapOf? ActionAffordance.ofJson?)
  let links ← fieldD? fields 4 [] (listOf? Link.ofJson?)
  let optional ← fieldD? fields 5 [] (listOf? Json.string?)
  return { title?, description?, properties, actions, links, optional }

/-- Reads the model of the document at `location`, which becomes the origin of its links. -/
def ofDocument (document : Json) (location : String) : Except GenerationError ThingModel :=
  match ofJson? document with
  | some m => .ok { m with links := m.links.map fun l => { l with origin? := some location } }
  | none => .error (.invalidModel location .malformed)

end ThingModel

end ThingTypes
