import ThingTypes.Schema.Reader
import ThingTypes.Unicode.Blank

/-
  Thing Models, as far as types are generated from them: title, properties, actions and links.
  Everything else in a document is ignored. A model may extend another one; `mergeBase` puts the
  definitions of a base model underneath its own.
-/

namespace ThingTypes

/-- The relation of a link to a base model. -/
def extendsRelation : String := "tm:extends"

/-- The relation of a link to the model of a sub-feature. -/
def submodelRelation : String := "tm:submodel"

inductive LinkKind where
  | extends
  | submodel
  | other
deriving Repr, DecidableEq

structure Link where
  relation? : Option String := none
  href : String
  instanceName? : Option String := none
  mediaType? : Option String := none
  /-- The location of the document that declared the link; its href is relative to it. -/
  origin? : Option String := none
deriving Repr, DecidableEq, Inhabited

def Link.kind (l : Link) : LinkKind :=
  if l.relation? = some extendsRelation then .extends
  else if l.relation? = some submodelRelation then .submodel
  else .other

structure ActionAffordance where
  title? : Option String := none
  description? : Option String := none
  /-- The schemas of input and output, not read yet. -/
  input? : Option Json := none
  output? : Option Json := none
deriving Repr, Inhabited

structure ThingModel where
  title? : Option String := none
  description? : Option String := none
  /-- The schemas of the properties, not read yet. -/
  properties : OrderedMap String Json := ∅
  actions : OrderedMap String ActionAffordance := ∅
  links : List Link := []
  /-- Pointers to the affordances that an instance may leave out. -/
  optional : List String := []
deriving Inhabited

namespace ThingModel

/-- The title, or `fallback` where the title is missing or blank. -/
def nameOr (m : ThingModel) (fallback : String) : String :=
  match m.title? with
  | some title => if (Unicode.trim title.toList).isEmpty then fallback else title
  | none => fallback

/-- The link to the base model, if there is one; more than one is an error. -/
def extendsLink (m : ThingModel) (location : String) : Except GenerationError (Option Link) :=
  match m.links.filter (·.kind = .extends) with
  | [] => .ok none
  | [link] => .ok (some link)
  | links => .error (.multipleExtends location links.length)

/-- The links to sub-features, in document order. -/
def submodels (m : ThingModel) : List Link :=
  m.links.filter (·.kind = .submodel)

/-- Puts a base model underneath: its definitions come first and are overridden by those of `m`.
The link from `m` to its base is used up, and the links of the base are kept. -/
def mergeBase (m base : ThingModel) : ThingModel where
  title? := m.title?.or base.title?
  description? := m.description?.or base.description?
  properties := base.properties.insertAll m.properties.entries
  actions := base.actions.insertAll m.actions.entries
  links := base.links ++ m.links.filter (·.kind ≠ .extends)
  optional := base.optional.foldl
    (fun optional pointer => if optional.contains pointer then optional else optional ++ [pointer])
    m.optional

def isOptionalProperty (m : ThingModel) (name : String) : Bool :=
  m.optional.contains ("/properties/" ++ name)

/-- The properties that are not listed as optional. -/
def requiredProperties (m : ThingModel) : List String :=
  m.properties.keys.filter (!m.isOptionalProperty ·)

/-- The schemas of all properties, read. -/
def propertyNodes (m : ThingModel) : Except GenerationError (List (String × SchemaNode)) :=
  m.properties.entries.mapM fun (name, schema) => do
    let node ← SchemaNode.ofJson schema ("#/properties/" ++ name)
    return (name, node)

end ThingModel

end ThingTypes
