import Mathlib.Data.List.Nodup
import Mathlib.Data.List.Dedup
import Mathlib.Data.Set.Function
import ThingTypes.Proofs.Resolution.Calls

/-
  The texts that a run takes the digests of. What is digested next may depend on the digests before,
  so the texts are found along the run. A run has no other use for the digest: with one that agrees
  on these texts it does the same (`Digesting.eq_of_agree`). So where the digest has no collision
  among them, the run is one with a digest that has no collisions at all
  (`Digesting.exists_injective`).
-/

namespace ThingTypes

/-- Some text is longer than the digests of all these texts. -/
theorem Digest.exists_longer (digest : Digest) (texts : List String) :
    ∃ long : String, ∀ text ∈ texts, (digest text).digits.length < long.length := by
  induction texts with
  | nil => exact ⟨"", nofun⟩
  | cons text texts ih =>
    obtain ⟨long, hlong⟩ := ih
    refine ⟨(digest text).digits ++ "." ++ long, List.forall_mem_cons.mpr ⟨?_, fun t ht => ?_⟩⟩
    · simp only [String.length_append]
      exact Nat.lt_add_right _ (Nat.lt_succ_self _)
    · rw [String.length_append]
      exact Nat.lt_add_left _ (hlong t ht)

/-- A digest without collisions among some texts agrees there with one that has no collisions. -/
theorem Digest.exists_injective {digest : Digest} {texts : List String}
    (h : Set.InjOn digest {text | text ∈ texts}) :
    ∃ other : Digest, Function.Injective other ∧ ∀ text ∈ texts, other text = digest text := by
  obtain ⟨long, hlong⟩ := digest.exists_longer texts
  -- every other text has a digest longer than those of the texts
  refine ⟨fun text => if text ∈ texts then digest text else ⟨long ++ text⟩, fun a b hab => ?_,
    fun text htext => if_pos htext⟩
  have hne : ∀ {a b}, a ∈ texts → digest a ≠ ⟨long ++ b⟩ := fun {a b} ha hsame => by
    have hlt := hlong a ha
    rw [hsame, String.length_append] at hlt
    omega
  dsimp only at hab
  split_ifs at hab with ha hb hb
  · exact h ha hb hab
  · exact absurd hab (hne ha)
  · exact absurd hab.symm (hne hb)
  · simpa using hab

instance (digest : Digest) (texts : List String) :
    Decidable (Set.InjOn digest {text | text ∈ texts}) :=
  decidable_of_iff (texts.dedup.map digest).Nodup <| by
    rw [List.nodup_map_iff_inj_on texts.nodup_dedup]
    simp [Set.InjOn]

/-- The same settings with another digest. -/
abbrev ResolutionSettings.withDigest (s : ResolutionSettings) (digest : Digest) :
    ResolutionSettings :=
  { s with digest }

namespace Resolution

/-- How an action uses the digest: the texts that it takes the digests of. -/
structure Digesting {α : Type} (act : Digest → ResolveM α) where
  texts : Digest → ResolutionState → List String
  eq_of_agree : ∀ {digest other : Digest} {st : ResolutionState},
    (∀ text ∈ texts digest st, other text = digest text) → act other st = act digest st

namespace Digesting

variable {α β γ : Type}

/-- Without collisions among its texts, an action does what it does with a digest that has no
collisions. -/
theorem exists_injective {act : Digest → ResolveM α} (h : Digesting act) {digest : Digest}
    {st : ResolutionState} (hdigest : Set.InjOn digest {text | text ∈ h.texts digest st}) :
    ∃ other : Digest, Function.Injective other ∧ act other st = act digest st := by
  obtain ⟨other, hother, hagree⟩ := Digest.exists_injective hdigest
  exact ⟨other, hother, h.eq_of_agree hagree⟩

/-! ## Ways of putting actions together -/

/-- The action has no use for the digest. -/
def const (act : ResolveM α) : Digesting fun _ => act where
  texts _ _ := []
  eq_of_agree _ := rfl

/-- The second action has its texts where the first one ends. -/
def bind {x : Digest → ResolveM α} {f : α → Digest → ResolveM β} (hx : Digesting x)
    (hf : ∀ a, Digesting (f a)) : Digesting fun digest => x digest >>= fun a => f a digest where
  texts digest st := hx.texts digest st ++
    match x digest st with
    | .ok a st' => (hf a).texts digest st'
    | .error _ _ => []
  eq_of_agree {digest other st} h := by
    obtain ⟨hfirst, hrest⟩ := List.forall_mem_append.mp h
    change EStateM.bind _ _ st = EStateM.bind _ _ st
    unfold EStateM.bind
    rw [hx.eq_of_agree hfirst]
    cases hrun : x digest st with
    | ok a st' =>
      rw [hrun] at hrest
      exact (hf a).eq_of_agree hrest
    | error e st' => rfl

def map {x : Digest → ResolveM α} (f : α → β) (hx : Digesting x) :
    Digesting fun digest => do return f (← x digest) :=
  hx.bind fun a => const (pure (f a))

def ofEq {x y : Digest → ResolveM α} (hx : Digesting x) (h : ∀ digest, x digest = y digest) :
    Digesting y where
  texts := hx.texts
  eq_of_agree hagree := by
    rw [← h, ← h]
    exact hx.eq_of_agree hagree

/-- The digest of a text is taken, and the action goes on with it. -/
def fingerprint (text : String) {f : Fingerprint → Digest → ResolveM α}
    (hf : ∀ a, Digesting (f a)) : Digesting fun digest => f (digest text) digest where
  texts digest st := text :: (hf (digest text)).texts digest st
  eq_of_agree {digest other st} h := by
    obtain ⟨htext, hrest⟩ := List.forall_mem_cons.mp h
    rw [htext]
    exact (hf (digest text)).eq_of_agree hrest

/-- The digest of a text is all that the action uses. -/
def ofText (text : String) {x : Digest → ResolveM α}
    (h : ∀ {digest other : Digest}, other text = digest text → x other = x digest) :
    Digesting x where
  texts _ _ := [text]
  eq_of_agree hagree := by rw [h (hagree text List.mem_cons_self)]

def ite (c : Prop) [Decidable c] {x y : Digest → ResolveM α} (hx : Digesting x)
    (hy : Digesting y) : Digesting fun digest => if c then x digest else y digest where
  texts digest st := if c then hx.texts digest st else hy.texts digest st
  eq_of_agree h := by
    split_ifs at h ⊢
    · exact hx.eq_of_agree h
    · exact hy.eq_of_agree h

def option {o : Option γ} {f : γ → Digest → ResolveM α} {x : Digest → ResolveM α}
    (hf : ∀ a, Digesting (f a)) (hx : Digesting x) :
    Digesting fun digest => match o with | some a => f a digest | none => x digest :=
  match o with
  | some a => hf a
  | none => hx

variable (s : ResolutionSettings)

def nested {act : Digest → ResolveM α} (site : Site) (h : Digesting act) :
    Digesting fun digest => nested (s.withDigest digest) site (act digest) where
  texts digest st := h.texts digest { st with depth := st.depth + 1 }
  eq_of_agree hagree := by
    unfold Resolution.nested
    rw [h.eq_of_agree hagree]

/-! ## Declarations -/

def declareClass (name : String) (node : SchemaNode) (kind : ClassKind) (site : Site)
    {members : Digest → TypeName → ResolveM (ClassDecl → ClassDecl)}
    (hmembers : ∀ type, Digesting fun digest => members digest type) :
    Digesting fun digest =>
      declareClass (s.withDigest digest) name node kind site (members digest) :=
  fingerprint node.skeleton.canonical (f := fun fingerprint digest => do
    match ← claimClass s name fingerprint site with
    | .existing type => return type
    | .fresh type =>
      modifyCatalog fun c =>
        { c with
          classes := c.classes.insertClass
            (.ofSchema type fingerprint kind site.context.role node.info) }
      let addMembers ← members digest type
      modifyCatalog (·.modifyClass type.key addMembers)
      return type)
    fun fingerprint => (const (claimClass s name fingerprint site)).bind fun
    | .existing type => const (pure type)
    | .fresh type => (const (modifyCatalog _)).bind fun _ =>
      (hmembers type).bind fun _ => const _

def declareAlias (name : String) (target : TypeRef) (sealedClass : TypeName) (site : Site) :
    Digesting fun digest => declareAlias (s.withDigest digest) name target sealedClass site :=
  ofText (Fingerprint.memberText (aliasMembers target)) fun h => by
    simp only [Resolution.declareAlias, claimClass, Fingerprint.ofMembers, h]

/-- The action goes on with what an enum holds. Its fingerprint is taken last, and the plain digest
leaves the text. -/
def content {r : Digest → Except GenerationError EnumContent}
    (hr : ∀ digest, r digest =
      (r plainDigest).map fun a => { a with fingerprint := digest a.fingerprint.digits })
    {f : EnumContent → Digest → ResolveM α} (hf : ∀ a, Digesting (f a)) :
    Digesting fun digest => liftExcept (r digest) >>= fun a => f a digest :=
  let next : Digesting fun digest =>
      match r plainDigest with
      | .ok a => f { a with fingerprint := digest a.fingerprint.digits } digest
      | .error e => throw e :=
    match r plainDigest with
    | .ok a => fingerprint a.fingerprint.digits fun fingerprint => hf { a with fingerprint }
    | .error e => const (throw e)
  next.ofEq fun digest => by
    rw [hr digest]
    cases r plainDigest <;> rfl

theorem ofScalars_eq_map (digest : Digest) (kind : ScalarKind) (values : List Json)
    (path : String) :
    EnumContent.ofScalars digest kind values path =
      (EnumContent.ofScalars plainDigest kind values path).map fun a =>
        { a with fingerprint := digest a.fingerprint.digits } := by
  unfold EnumContent.ofScalars
  cases (values.filter (!·.isNull)).mapM (EnumContent.checkScalar kind path) <;> rfl

theorem ofRecords_eq_map (digest : Digest) (properties : List (String × SchemaNode))
    (values : List Json) (path : String) :
    EnumContent.ofRecords digest properties values path =
      (EnumContent.ofRecords plainDigest properties values path).map fun a =>
        { a with fingerprint := digest a.fingerprint.digits } := by
  unfold EnumContent.ofRecords
  cases properties.mapM (EnumContent.declaredField path) with
  | error e => rfl
  | ok declared =>
    cases values.mapM (EnumContent.recordMembers path) with
    | error e => rfl
    | ok records =>
      cases declared with
      | cons field fields => rfl
      | nil =>
        change (EnumContent.inferFields path [] records.flatten).bind _ =
          Except.map _ ((EnumContent.inferFields path [] records.flatten).bind _)
        cases EnumContent.inferFields path [] records.flatten <;> rfl

def declareEnum (hint? : Option String) (info : SchemaInfo) (content : EnumContent) (site : Site)
    (placement : EnumPlacement) :
    Digesting fun digest => declareEnum (s.withDigest digest) hint? info content site placement :=
  const (Resolution.declareEnum s hint? info content site placement)

/-! ## Types of schemas -/

def scalarType (hint? : Option String) (info : SchemaInfo) (kind : ScalarKind) (site : Site) :
    Digesting fun digest => scalarType (s.withDigest digest) hint? info kind site :=
  let node := SchemaNode.mk info (.scalar kind)
  let enumOf (values : List Json) :=
    content (fun digest => ofScalars_eq_map digest kind values site.path) fun content =>
      map TypeRef.enumType (declareEnum s hint? info content site s.placement)
  let ofValues (values : List Json) :=
    ite (s.wraps node kind = true) (enumOf values) (const (pure (TypeRef.primitive kind)))
  (option (o := node.enumValues?) ofValues (const (pure (.primitive kind)))).ofEq fun digest => by
    unfold Resolution.scalarType
    dsimp only [node]
    cases (SchemaNode.mk info (.scalar kind)).enumValues? <;> rfl

def joinVariant (sealedClass : TypeName) (name : String) (type : TypeRef) (site : Site) :
    Digesting fun digest => joinVariant (s.withDigest digest) sealedClass name type site :=
  let aliasOf (target : TypeRef) :=
    map TypeRef.aliasType (declareAlias s name target sealedClass site)
  match type with
  | .classType variant =>
    const (Resolution.joinVariant s sealedClass name (.classType variant) site)
  | .primitive kind => aliasOf (.primitive kind)
  | .enumType type => aliasOf (.enumType type)
  | .aliasType type => aliasOf (.aliasType type)
  | .list type => aliasOf (.list type)
  | .map type => aliasOf (.map type)
  | .unit => aliasOf .unit

def aliasVariants (sealedClass : TypeName) (site : Site) :
    ∀ index members, Digesting fun digest =>
      aliasVariants (s.withDigest digest) sealedClass site index members
  | _, [] => const (pure [])
  | index, (name, kind) :: rest =>
    bind (declareAlias s name (.primitive kind) sealedClass (site.child (toString index))) fun _ =>
      map _ (aliasVariants sealedClass site (index + 1) rest)

/-- How the resolution of the parts of an object uses the digest. -/
structure Parts (shape : ObjectSchema) where
  fields : ∀ site, Digesting fun digest => (partsOf (s.withDigest digest) shape).fields site
  variants : ∀ type site,
    Digesting fun digest => (partsOf (s.withDigest digest) shape).variants type site
  mapValue : ∀ hint? site,
    Digesting fun digest => (partsOf (s.withDigest digest) shape).mapValue hint? site

def classOf (name : String) (info : SchemaInfo) (shape : ObjectSchema)
    (parts : Parts s shape) (site : Site) :
    Digesting fun digest => classOf (s.withDigest digest) name info shape
      (partsOf (s.withDigest digest) shape) site :=
  ite _ (const _) <|
    match shape with
    | ⟨_, _, some alternatives, _, _⟩ => declareClass s name _ .sealed site fun type =>
      let inner := (site.inside type).child "oneOf"
      (map (fun variants c => { c with variants }) <|
        option (o := soleScalars? alternatives)
          (fun members => aliasVariants s type inner 0 members)
          (parts.variants type inner)).ofEq fun digest => by
            cases soleScalars? alternatives <;> rfl
    | ⟨_, _, none, some values, _⟩ => declareClass s name _ .mapWrapper site fun type =>
      map _ (parts.mapValue _ _)
    | ⟨_, _, none, none, _⟩ => declareClass s name _ .plain site fun type =>
      map _ (parts.fields _)

def objectType (hint? : Option String) (info : SchemaInfo) (shape : ObjectSchema)
    (parts : Parts s shape) (site : Site) :
    Digesting fun digest => objectType (s.withDigest digest) hint? info shape
      (partsOf (s.withDigest digest) shape) site :=
  let enumOf (values : List Json) :=
    content (fun digest => ofRecords_eq_map digest shape.properties values site.path) fun content =>
      map TypeRef.enumType (declareEnum s hint? info content site s.placement)
  let mapOf (values : MapValues SchemaNode) :=
    map TypeRef.map (parts.mapValue (itemHint? hint? values.schema.info)
      (site.child values.keyword.name))
  let named :=
    option (o := hintedName? hint? info.title?)
      (fun name => map TypeRef.classType (classOf s name info shape parts site))
      (const (malformed site .objectWithoutName))
  (option (o := (SchemaNode.mk info (.object shape)).enumValues?) enumOf
    (option (o := if shape.oneOf?.isSome then none else shape.mapValues?) mapOf
      named)).ofEq fun digest => by
    unfold Resolution.objectType
    dsimp only
    cases (SchemaNode.mk info (.object shape)).enumValues? with
    | some values => rfl
    | none =>
      cases shape.oneOf? <;> cases shape.mapValues? <;>
        cases hintedName? hint? info.title? <;> rfl

mutual

def typeAt (hint? : Option String) : ∀ node site,
    Digesting fun digest => typeAt (s.withDigest digest) hint? node site
  | .mk info (.scalar kind), site => nested s site (scalarType s hint? info kind site)
  | .mk _ .null, site => nested s site (const (pure TypeRef.unit))
  | .mk _ (.array items), site => nested s site <|
    map TypeRef.list (typeAt (itemHint? hint? items.info) items (site.child "items"))
  | .mk info (.object ⟨properties, required, oneOf?, mapValues?, modelRef?⟩), site =>
    nested s site <|
      objectType s hint? info ⟨properties, required, oneOf?, mapValues?, modelRef?⟩
        { fields := fieldsAt required properties
          variants := alternativesAt oneOf?
          mapValue := mapValueAt mapValues? } site

def classAt (name : String) : ∀ node site,
    Digesting fun digest => classAt (s.withDigest digest) name node site
  | .mk info (.object ⟨properties, required, oneOf?, mapValues?, modelRef?⟩), site =>
    nested s site <|
      classOf s name info ⟨properties, required, oneOf?, mapValues?, modelRef?⟩
        { fields := fieldsAt required properties
          variants := alternativesAt oneOf?
          mapValue := mapValueAt mapValues? } site
  | .mk _ (.scalar _), site => nested s site (const (unsupported site _))
  | .mk _ .null, site => nested s site (const (unsupported site _))
  | .mk _ (.array _), site => nested s site (const (unsupported site _))

def fieldsAt (required : List String) : ∀ properties site,
    Digesting fun digest => fieldsAt (s.withDigest digest) required properties site
  | [], _ => const (pure [])
  | (name, node) :: rest, site =>
    bind (typeAt (some name) node (site.child name)) fun _ =>
      map _ (fieldsAt required rest site)

def variantsFrom (sealedClass : TypeName) : ∀ alternatives index site,
    Digesting fun digest => variantsFrom (s.withDigest digest) sealedClass alternatives index site
  | [], _, _ => const (pure [])
  | node :: rest, index, site =>
    let name := variantName sealedClass index node
    let inner := site.child (toString index)
    (bind (ite (isClassShaped node)
        ((map TypeRef.classType (classAt name node inner)).ofEq fun _ => rfl)
        (typeAt (some name) node inner)) fun type =>
      bind (joinVariant s sealedClass name type inner) fun variant =>
        map (variant :: ·) (variantsFrom sealedClass rest (index + 1) site)).ofEq fun digest => by
      rw [Resolution.variantsFrom]
      split <;> rfl

def alternativesAt : ∀ oneOf? type site,
    Digesting fun digest => alternativesAt (s.withDigest digest) oneOf? type site
  | none, _, _ => const (pure [])
  | some alternatives, sealedClass, site => variantsFrom sealedClass alternatives 0 site

def mapValueAt : ∀ mapValues? hint? site,
    Digesting fun digest => mapValueAt (s.withDigest digest) mapValues? hint? site
  | none, _, _ => const (pure TypeRef.unit)
  | some ⟨_, schema⟩, hint?, site => typeAt hint? schema site

end

def resolveSeparateEnum (name : String) (node : SchemaNode) (package : String)
    (context : NamingContext) :
    Digesting fun digest =>
      resolveSeparateEnum (s.withDigest digest) name node package context :=
  let ⟨info, kind⟩ := node
  let site : Site := { package, context, path := name }
  let declared (content : EnumContent) := declareEnum s (some name) info content site .separate
  let ofValues (values : List Json) : Digesting (fun digest => do
      let content ← match kind with
        | .object shape => liftExcept (EnumContent.ofRecords digest shape.properties values name)
        | .scalar kind => liftExcept (EnumContent.ofScalars digest kind values name)
        | _ => unsupported site (.enumOnType (SchemaNode.mk info kind).typeName)
      Resolution.declareEnum (s.withDigest digest) (some name) info content site .separate) :=
    match kind with
    | .object shape =>
      content (fun digest => ofRecords_eq_map digest shape.properties values name) declared
    | .scalar kind => content (fun digest => ofScalars_eq_map digest kind values name) declared
    | .null => bind (const (unsupported site _)) declared
    | .array _ => bind (const (unsupported site _)) declared
  (option (o := (SchemaNode.mk info kind).enumValues?) ofValues
    (const (malformed site .enumWithoutValues))).ofEq fun digest => by
    unfold Resolution.resolveSeparateEnum
    cases (SchemaNode.mk info kind).enumValues? <;> rfl

end Digesting

/-! ## Calls -/

/-- The same call with another digest. -/
abbrev Call.withDigest (call : Call) (digest : Digest) : Call :=
  { call with settings := call.settings.withDigest digest }

namespace Digesting

def call (call : Call) : Digesting fun digest => (call.withDigest digest).act :=
  let ⟨s, request, node, package, context⟩ := call
  match request with
  | .type => typeAt s node.info.title? node
    { package, context, path := node.info.title?.getD "#" }
  | .field name => typeAt s (some name) node { package, context, path := name }
  | .classNamed name =>
    (map TypeRef.classType (classAt s name node { package, context, path := name })).ofEq
      fun _ => rfl
  | .enumNamed name =>
    (map TypeRef.enumType (resolveSeparateEnum s name node package context)).ofEq fun _ => rfl

def resolveAll :
    ∀ calls : List Call, Digesting fun digest => resolveAll (calls.map (·.withDigest digest))
  | [] => const (pure [])
  | c :: calls => bind (call c) fun type => map (type :: ·) (resolveAll calls)

end Digesting

/-- The texts that calls take the digests of when they are made one after the other. -/
def digestedTexts (digest : Digest) (calls : List Call) : List String :=
  (Digesting.resolveAll calls).texts digest {}

/-- Where the digest has no collision among the texts of a run, the run is one with a digest that
has no collisions. -/
theorem exists_injective_resolveAll {digest : Digest} {calls : List Call}
    (hcalls : ∀ call ∈ calls, call.settings.digest = digest)
    (hdigest : Set.InjOn digest {text | text ∈ digestedTexts digest calls}) :
    ∃ other : Digest, Function.Injective other ∧
      resolveAll (calls.map (·.withDigest other)) {} = resolveAll calls {} := by
  obtain ⟨other, hother, hsame⟩ := (Digesting.resolveAll calls).exists_injective hdigest
  have hmap : calls.map (·.withDigest digest) = calls := by
    conv_rhs => rw [← List.map_id calls]
    refine List.map_congr_left fun call hmem => ?_
    rw [← hcalls call hmem, id]
  exact ⟨other, hother, by rw [hsame, hmap]⟩

end Resolution

end ThingTypes
