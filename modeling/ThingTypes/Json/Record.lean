import ThingTypes.Json.Basic

/-
  Records in JSON. A record with named fields in a fixed order may be written as an object, where
  unknown members are ignored, or as an array of the fields in their order, where fields at the
  end may be left out. Field readers then say what a missing field means.
-/

namespace ThingTypes.Json

/-- The fields of a record by the given names, `none` for each that is missing. -/
def record? (names : List String) : Json → Option (List (Option Json))
  | object members => some (names.map (Entries.get? · members))
  | array items =>
    if items.length ≤ names.length then
      some (items.map some ++ List.replicate (names.length - items.length) none)
    else none
  | _ => none

/-- Reads the field in place `i`, or takes the default if it is missing. -/
def fieldD? {α : Type} (fields : List (Option Json)) (i : Nat) (default : α)
    (read : Json → Option α) : Option α :=
  match fields[i]? with
  | some (some j) => read j
  | _ => some default

/-- Reads the field in place `i`, which must be present. -/
def field? {α : Type} (fields : List (Option Json)) (i : Nat) (read : Json → Option α) : Option α :=
  match fields[i]? with
  | some (some j) => read j
  | _ => none

/-- `null` stands for no value. -/
def nullable? {α : Type} (read : Json → Option α) : Json → Option (Option α)
  | null => some none
  | j => (read j).map some

def listOf? {α : Type} (read : Json → Option α) (j : Json) : Option (List α) :=
  j.array?.bind fun items => items.mapM read

/-- An object as a map from its keys. -/
def mapOf? {α : Type} (read : Json → Option α) (j : Json) : Option (OrderedMap String α) :=
  j.members?.bind fun members =>
    (members.mapM fun member => (read member.2).map fun a => (member.1, a)).map OrderedMap.ofList

/-- A choice between names: a string, or an object whose only member has `null` under the name. -/
def choice? {α : Type} (options : List (String × α)) : Json → Option α
  | string name => Entries.get? name options
  | object [(name, null)] => Entries.get? name options
  | _ => none

end ThingTypes.Json
