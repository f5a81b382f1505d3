import ThingTypes.Catalog.Basic
import ThingTypes.Identifier.Candidates
import ThingTypes.Resolution.EnumContent

/-
  Resolving schemas to types: settings, state and the choice of names. A resolution declares the
  types that it needs in the catalog. When it fails, what has been declared so far stays.
-/

namespace ThingTypes

/-- Decides which scalar schemas with declared values become enums. -/
abbrev WrapPolicy := SchemaNode → ScalarKind → Bool

/-- Every scalar schema that declares values becomes an enum. -/
def WrapPolicy.declaredValues : WrapPolicy := fun node _ => node.enumValues?.isSome

structure ResolutionSettings where
  naming : Identifier.ClassNaming := .alwaysCompound
  placement : EnumPlacement := .inline
  /-- How deep schemas may nest. -/
  maxDepth : Nat := 64
  wraps : WrapPolicy := .declaredValues
  digest : Digest := .sha256

structure ResolutionState where
  catalog : Catalog := {}
  /-- How many schemas the one at hand stands in. -/
  depth : Nat := 0
deriving Inhabited

abbrev ResolveM := EStateM GenerationError ResolutionState

/-- Where a schema stands. The path appears in errors only. -/
structure Site where
  package : String
  context : NamingContext
  path : String

namespace Site

def child (site : Site) (segment : String) : Site :=
  { site with path := site.path ++ "/" ++ segment }

/-- The package of the types that belong to a class. Those of a feature have their own. -/
def innerPackage (site : Site) : String :=
  match site.context.role with
  | .feature => site.package ++ ".properties"
  | _ => site.package

/-- The place of what stands inside a class. -/
def inside (site : Site) (owner : TypeName) : Site where
  package := site.innerPackage
  context := site.context.descend (some owner)
  path := site.path

end Site

namespace Resolution

def malformed {α : Type} (site : Site) (fault : SchemaFault) : ResolveM α :=
  throw (.malformedSchema site.path fault)

def unsupported {α : Type} (site : Site) (fault : ShapeFault) : ResolveM α :=
  throw (.unsupportedShape site.path fault)

def modifyCatalog (f : Catalog → Catalog) : ResolveM Unit :=
  modify fun st => { st with catalog := f st.catalog }

/-- Runs one level deeper, unless that is too deep. The level is left again on failure too. -/
def nested {α : Type} (s : ResolutionSettings) (site : Site) (act : ResolveM α) : ResolveM α :=
  fun st =>
    if s.maxDepth ≤ st.depth then .error (.schemaTooDeep site.path s.maxDepth) st
    else
      let leave (st : ResolutionState) : ResolutionState := { st with depth := st.depth - 1 }
      match act { st with depth := st.depth + 1 } with
      | .ok a st => .ok a (leave st)
      | .error e st => .error e (leave st)

/-- The class name that a hint or, without one, a title gives. -/
def hintedName? (hint? title? : Option String) : Option String :=
  ((hint?.or title?).map Identifier.className).filter (!·.isEmpty)

/-- The hint for the items of a collection. -/
def itemHint? (hint? : Option String) (items : SchemaInfo) : Option String :=
  (hint?.map fun hint => Identifier.className hint ++ "Item").or items.title?

/-- A class name that has been claimed. -/
inductive ClassSlot where
  /-- Held from now on; the declaration is still to come. -/
  | fresh (name : TypeName)
  /-- Held by the same structure already. -/
  | existing (name : TypeName)

/-- Claims the first candidate after `name` that the structure can have. -/
def claimCandidate (name : String) (parent? feature? : Option String) (package : String)
    (fingerprint : Fingerprint) : ResolveM (Option NameClaim) := do
  let st ← get
  let taken := st.catalog.takenForClass package fingerprint
  let candidates := Identifier.searchCandidates name parent? feature? taken
  match st.catalog.claimClassName package candidates fingerprint with
  | none => return none
  | some (claim, catalog) =>
    set { st with catalog }
    return some claim

/-- Claims a name for a class: the one that the naming policy derives, or the next free
candidate. -/
def claimClass (s : ResolutionSettings) (name : String) (fingerprint : Fingerprint) (site : Site) :
    ResolveM ClassSlot := do
  let simple := Identifier.className name
  if simple.isEmpty then malformed site .emptyClassName
  else
    let taken := (← get).catalog.takenForClass site.package fingerprint
    let parent? := site.context.parentName?
    let derived := Identifier.deriveName s.naming simple parent? taken
    match ← claimCandidate derived parent? site.context.feature? site.package fingerprint with
    | none => malformed site (.noFreeClassName derived)
    | some claim =>
      let type : TypeName := { package := site.package, name := claim.name }
      return if claim.existing then .existing type else .fresh type

/-- Declares a class, unless its structure has been declared already. The class is in the catalog
before its members are resolved, so that nested enums find it. -/
def declareClass (s : ResolutionSettings) (name : String) (node : SchemaNode) (kind : ClassKind)
    (site : Site) (members : TypeName → ResolveM (ClassDecl → ClassDecl)) : ResolveM TypeName := do
  let fingerprint := node.fingerprint s.digest
  match ← claimClass s name fingerprint site with
  | .existing type => return type
  | .fresh type =>
    modifyCatalog fun c =>
      { c with
        classes := c.classes.insertClass
          (.ofSchema type fingerprint kind site.context.role node.info) }
    let addMembers ← members type
    modifyCatalog (·.modifyClass type.key addMembers)
    return type

/-- What decides whether two aliases of a name are the same: the target. -/
def aliasMembers (target : TypeRef) : List (String × String) :=
  [("alias", target.signature)]

/-- Declares an alias as an alternative of a sealed class, unless one with the same target has the
name. -/
def declareAlias (s : ResolutionSettings) (name : String) (target : TypeRef)
    (sealedClass : TypeName) (site : Site) : ResolveM TypeName := do
  let fingerprint := Fingerprint.ofMembers s.digest (aliasMembers target)
  match ← claimClass s name fingerprint site with
  | .existing type => return type
  | .fresh type =>
    modifyCatalog fun c =>
      { c with
        classes := c.classes.insertAlias
          { package := type.package, name := type.name, target, fingerprint
            sealedParent? := some sealedClass } }
    return type

/-- The name of a top-level enum. Names of classes are never shared. A name of an enum with other
values is left only where the naming policy offers another one. -/
def separateEnumName (s : ResolutionSettings) (catalog : Catalog) (name : String)
    (fingerprint : Fingerprint) (site : Site) : Except GenerationError String :=
  let taken := catalog.takenForEnum site.package fingerprint
  let parent? := site.context.parentName?
  let derived := Identifier.deriveName s.naming name parent? taken
  if !catalog.classes.isRegistered ⟨site.package, derived⟩ then .ok derived
  else
    match Identifier.firstFree? derived parent? site.context.feature? taken with
    | some free => .ok free
    | none => .error (.malformedSchema site.path (.noFreeEnumName derived))

/-- The declaration of an enum. -/
def enumDecl (name : String) (info : SchemaInfo) (content : EnumContent) (package : String)
    (owner? : Option String) : EnumDecl where
  package
  name
  owner?
  backing := content.backing
  fields := content.fields
  constants := content.constants
  fingerprint := content.fingerprint
  description? := info.description?

/-- Declares an enum inside its owner. -/
def nestEnum (name : String) (info : SchemaInfo) (content : EnumContent) (owner : TypeName) :
    ResolveM TypeName := do
  let decl := enumDecl name info content owner.package (some owner.name)
  modifyCatalog fun c =>
    { c with enums := c.enums.insertInline decl }.modifyClass owner.key (·.nestEnum decl)
  return decl.typeName

/-- Declares an enum at the top level. -/
def declareSeparateEnum (s : ResolutionSettings) (name : String) (info : SchemaInfo)
    (content : EnumContent) (site : Site) : ResolveM TypeName := do
  let catalog := (← get).catalog
  let name ← liftExcept (separateEnumName s catalog name content.fingerprint site)
  let decl := enumDecl name info content site.package none
  let (_, enums) ← liftExcept (catalog.enums.insertSeparate decl)
  modifyCatalog fun c => { c with enums }
  return decl.typeName

/-- Declares an enum where the settings want it. At the top level it stands without an owner, and
wherever there is no class to stand in. -/
def declareEnum (s : ResolutionSettings) (hint? : Option String) (info : SchemaInfo)
    (content : EnumContent) (site : Site) (placement : EnumPlacement) : ResolveM TypeName := do
  match hintedName? hint? info.title? with
  | none => malformed site .enumWithoutName
  | some name =>
    match placement, site.context.parent? with
    | .inline, some owner => nestEnum name info content owner
    | _, _ => declareSeparateEnum s name info content site

end Resolution

end ThingTypes
