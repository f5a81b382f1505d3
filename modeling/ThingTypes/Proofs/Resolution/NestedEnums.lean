import ThingTypes.Proofs.Resolution.Calls
import ThingTypes.Proofs.Resolution.EnumValues

/-
  Enums that stand inside classes. A property that declares values, itself or under arrays and maps,
  has a field whose type mentions an enum inside the class of the field. The name of that enum is
  the class name of the property, with `Item` for each array or map around the values. Enums of one
  name replace each other, so the enum holds the values of the last property that leads to its name
  (`data_class_enums`).
-/

namespace ThingTypes

/-- The enum that a type mentions, under any lists and maps. -/
def TypeRef.enumName? : TypeRef → Option TypeName
  | enumType name => some name
  | list item | map item => item.enumName?
  | _ => none

/-! ## The enums that properties declare -/

namespace SchemaNode

mutual

/-- The enum that a schema declares under any arrays and maps: its name and its values. -/
def enumUnder? (hint : String) : SchemaNode → Option (String × List Json)
  | .mk info (.scalar kind) =>
    (mk info (.scalar kind)).enumValues?.map fun values => (Identifier.className hint, values)
  | .mk _ .null => none
  | .mk _ (.array items) => enumUnder? (Identifier.className hint ++ "Item") items
  | .mk info (.object ⟨properties, required, oneOf?, mapValues?, modelRef?⟩) =>
    match (mk info (.object ⟨properties, required, oneOf?, mapValues?, modelRef?⟩)).enumValues? with
    | some values => some (Identifier.className hint, values)
    | none => if oneOf?.isSome then none else enumInMap? hint mapValues?

def enumInMap? (hint : String) : Option (MapValues SchemaNode) → Option (String × List Json)
  | none => none
  | some ⟨_, schema⟩ => enumUnder? (Identifier.className hint ++ "Item") schema

end

theorem enumUnder?_of_values {hint : String} {info : SchemaInfo} {shape : ObjectSchema}
    {values : List Json} (h : (mk info (.object shape)).enumValues? = some values) :
    enumUnder? hint (.mk info (.object shape)) = some (Identifier.className hint, values) := by
  cases shape
  rw [enumUnder?, h]

theorem enumUnder?_of_map {hint : String} {info : SchemaInfo} {shape : ObjectSchema}
    {values : MapValues SchemaNode} (h : (mk info (.object shape)).enumValues? = none)
    (honeOf : shape.oneOf? = none) (hmap : shape.mapValues? = some values) :
    enumUnder? hint (.mk info (.object shape)) =
      enumUnder? (Identifier.className hint ++ "Item") values.schema := by
  obtain ⟨properties, required, oneOf?, mapValues?, modelRef?⟩ := shape
  cases honeOf
  cases hmap
  cases values
  rw [enumUnder?, h]
  rfl

theorem enumUnder?_of_class {hint : String} {info : SchemaInfo} {shape : ObjectSchema}
    (h : (mk info (.object shape)).enumValues? = none)
    (hclass : shape.oneOf? = none → shape.mapValues? = none) :
    enumUnder? hint (.mk info (.object shape)) = none := by
  obtain ⟨properties, required, oneOf?, mapValues?, modelRef?⟩ := shape
  rw [enumUnder?, h]
  cases oneOf? with
  | some alternatives => rfl
  | none =>
    cases hclass rfl
    rfl

/-- The values of the last property that declares an enum of the name. -/
def lastEnum? (name : String) : List (String × SchemaNode) → Option (List Json)
  | [] => none
  | (property, node) :: rest =>
    (lastEnum? name rest).or
      ((enumUnder? property node).bind fun e => if e.1 = name then some e.2 else none)

theorem lastEnum?_eq_none_iff {name : String} {properties : List (String × SchemaNode)} :
    lastEnum? name properties = none ↔
      ∀ property ∈ properties, ∀ values,
        enumUnder? property.1 property.2 ≠ some (name, values) := by
  induction properties with
  | nil => simp [lastEnum?]
  | cons first rest ih =>
    rw [lastEnum?, Option.or_eq_none_iff, ih, List.forall_mem_cons, and_comm]
    refine and_congr_left fun _ => ?_
    rcases henum : enumUnder? first.1 first.2 with _ | ⟨found, values⟩
    · simp
    · by_cases h : found = name <;> simp [h]

/-- A schema that is part of another, at any depth. -/
inductive Subschema (root : SchemaNode) : SchemaNode → Prop
  | root : Subschema root root
  | items {info : SchemaInfo} {items : SchemaNode} :
    Subschema root (.mk info (.array items)) → Subschema root items
  | property {info : SchemaInfo} {shape : ObjectSchema} {property : String × SchemaNode} :
    Subschema root (.mk info (.object shape)) → property ∈ shape.properties →
    Subschema root property.2
  | alternative {info : SchemaInfo} {shape : ObjectSchema} {alternatives : List SchemaNode}
    {node : SchemaNode} : Subschema root (.mk info (.object shape)) →
    shape.oneOf? = some alternatives → node ∈ alternatives → Subschema root node
  | mapValues {info : SchemaInfo} {shape : ObjectSchema} {values : MapValues SchemaNode} :
    Subschema root (.mk info (.object shape)) → shape.mapValues? = some values →
    Subschema root values.schema

end SchemaNode

/-! ## Nesting -/

namespace Catalog

/-- Enums nest in the owner and in classes that come with the growth, and in no other class. -/
theorem Grows.nestedEnums_eq {digest : Digest} {owner? sealed? : Option TypeName}
    {c c' : Catalog} (h : Grows digest owner? sealed? c c') (hc : c.Consistent) {key : TypeKey}
    {d : ClassDecl} (hd : c.classes.class? key = some d)
    (howner : ∀ owner, owner? = some owner → owner.key ≠ key) :
    ∃ d', c'.classes.class? key = some d' ∧ d'.nestedEnums = d.nestedEnums := by
  induction h generalizing d with
  | refl c => exact ⟨d, hd, rfl⟩
  | trans h _ ih ih' =>
    obtain ⟨d', hd', henums⟩ := ih hc hd howner
    obtain ⟨d'', hd'', henums'⟩ := ih' (h.consistent hc) hd' howner
    exact ⟨d'', hd'', henums'.trans henums⟩
  | @newClass _ _ c c' type node kind role f _ hfree _ hf ih =>
    have hne : type.key ≠ key := by
      rintro rfl
      rw [hc.class?_of_free hfree.1] at hd
      cases hd
    obtain ⟨d', hd', henums⟩ := ih (hc.addClass hfree)
      ((class?_addClass _ _ _).trans ((if_neg (Ne.symm hne)).trans hd))
      (by rintro _ ⟨⟩; exact hne)
    exact ⟨d', by rw [class?_modifyClass, hd', Option.map_some, if_neg (Ne.symm hne)], henums⟩
  | newAlias => exact ⟨d, hd, rfl⟩
  | @join _ parent c key' =>
    refine ⟨_, by rw [class?_modifyClass, hd, Option.map_some], ?_⟩
    split
    · unfold ClassDecl.addSealedParent
      split <;> rfl
    · rfl
  | newEnum => exact ⟨d, hd, rfl⟩
  | @nest _ owner c e _ _ =>
    exact ⟨d, by rw [class?_nest, hd, Option.map_some, if_neg (Ne.symm (howner owner rfl))], rfl⟩

end Catalog

namespace Resolution

open Catalog SchemaNode

variable {s : ResolutionSettings} {c : Catalog} {site : Site} {owner : TypeName}

theorem hintedName?_of_hint {hint name : String} {title? : Option String}
    (h : hintedName? (some hint) title? = some name) : name = Identifier.className hint := by
  simp only [hintedName?, Option.or, Option.map_some, Option.filter_eq_some_iff] at h
  exact (Option.some.inj h.1).symm

/-- What a resolution nests in its owner, and nothing else. -/
def Nests (c : Catalog) (owner : TypeName) (name : String) (values : List Json) (type : TypeRef)
    (c' : Catalog) : Prop :=
  ∃ e : EnumDecl, c' = c.nest owner.key e ∧ e.name = name ∧
    e.constants.map EnumConstant.value = EnumContent.presentValues values ∧
    type.enumName? = some { package := owner.package, name, owner? := some owner.name }

theorem declareEnum_nests {hint : String} {info : SchemaInfo} {content : EnumContent}
    {values : List Json} (howner : site.context.parent? = some owner)
    (hcontent : content.constants.map EnumConstant.value = EnumContent.presentValues values) :
    Outcome (declareEnum s (some hint) info content site .inline) c
      (fun type c' => Nests c owner (Identifier.className hint) values (.enumType type) c')
      fun _ => True := by
  refine declareEnum_outcome trivial ?_ ?_ ?_
  · intro name owner' hname _ howner'
    rw [howner, Option.some.injEq] at howner'
    subst howner'
    rw [hintedName?_of_hint hname]
    exact ⟨_, rfl, rfl, hcontent, rfl⟩
  · rintro _ _ _ (h | h)
    · cases h
    · rw [howner] at h
      cases h
  · rintro _ _ _ (h | h)
    · cases h
    · rw [howner] at h
      cases h

/-- A schema that declares an enum nests it, and resolves to a type that mentions it. -/
theorem typeAt_nests (hplacement : s.placement = .inline) (node : SchemaNode) :
    ∀ {hint} site {c name values}, site.context.parent? = some owner →
      enumUnder? hint node = some (name, values) → s.wraps = .declaredValues →
      Outcome (typeAt s (some hint) node site) c
        (fun type c' => Nests c owner name values type c') fun _ => True := by
  induction node using SchemaNode.byChildren with
  | scalar info kind =>
    intro hint site c name values howner henum hwraps
    rw [enumUnder?, Option.map_eq_some_iff] at henum
    obtain ⟨values, hvalues, ⟨⟩⟩ := henum
    refine typeAt_scalar_outcome trivial ?_ ?_
    · intro h
      rw [hvalues, hwraps, WrapPolicy.declaredValues, hvalues] at h
      simp at h
    · intro values' content hvalues' hcontent
      rw [hvalues, Option.some.injEq] at hvalues'
      subst hvalues'
      rw [hplacement]
      exact declareEnum_nests howner (EnumContent.ofScalars_eq_ok hcontent).1
  | null info =>
    intro hint site c name values _ henum
    rw [enumUnder?] at henum
    cases henum
  | array info items ih =>
    intro hint site c name values howner henum hwraps
    rw [enumUnder?] at henum
    exact typeAt_array_outcome trivial (ih (site.child "items") howner henum hwraps)
  | object info shape _ _ hvalues =>
    intro hint site c name values howner henum hwraps
    refine typeAt_object_outcome trivial ?_ ?_ ?_
    · intro values' content hvalues' hcontent
      rw [enumUnder?_of_values hvalues', Option.some.injEq, Prod.mk.injEq] at henum
      obtain ⟨rfl, rfl⟩ := henum
      rw [hplacement]
      exact declareEnum_nests howner (EnumContent.ofRecords_eq_ok hcontent).1
    · intro mapValues hnone honeOf hmap
      rw [enumUnder?_of_map hnone honeOf hmap] at henum
      exact hvalues mapValues hmap (site.child _) howner henum hwraps
    · intro _ hnone hclass _
      rw [enumUnder?_of_class hnone hclass] at henum
      cases henum

/-- A schema that declares no enum nests nothing in its owner. -/
theorem typeAt_growing_of_no_enum (node : SchemaNode) :
    ∀ {hint site}, enumUnder? hint node = none →
      Growing s.digest none none (typeAt s (some hint) node site) := by
  induction node using SchemaNode.byChildren with
  | scalar info kind =>
    intro hint site henum c
    rw [enumUnder?, Option.map_eq_none_iff] at henum
    refine typeAt_scalar_outcome (.refl c) (fun _ => .refl c) fun values _ hvalues => ?_
    rw [henum] at hvalues
    cases hvalues
  | null info => exact fun _ c => typeAt_null_outcome (.refl c) (.refl c)
  | array info items ih =>
    intro hint site henum c
    rw [enumUnder?] at henum
    exact typeAt_array_outcome (.refl c) (ih henum c)
  | object info shape _ _ hvalues =>
    intro hint site henum c
    refine typeAt_object_outcome (.refl c) ?_ ?_ ?_
    · intro values _ hvalues'
      rw [enumUnder?_of_values hvalues'] at henum
      cases henum
    · intro values hnone honeOf hmap
      rw [enumUnder?_of_map hnone honeOf hmap] at henum
      exact hvalues values hmap henum c
    · exact fun name _ _ _ => classOf_partsOf_growing name info shape c

/-! ## Fields -/

/-- The field of a property: what it says comes from the property, and its type mentions the enum
that the property declares. -/
def IsFieldOf (owner : TypeName) (required : List String) (property : String × SchemaNode)
    (field : FieldDecl) : Prop :=
  field = .ofSchema property.1 field.type (required.contains property.1) property.2.info ∧
    ∀ name values, enumUnder? property.1 property.2 = some (name, values) →
      field.type.enumName? = some { package := owner.package, name, owner? := some owner.name }

/-- The nested enums of a class after enums of the properties have been nested in it. -/
def NestsAll (properties : List (String × SchemaNode)) (d d' : ClassDecl) : Prop :=
  ∀ name, match lastEnum? name properties with
    | some values => ∃ e, d'.nestedEnum? name = some e ∧
      e.constants.map EnumConstant.value = EnumContent.presentValues values
    | none => d'.nestedEnum? name = d.nestedEnum? name

theorem NestsAll.cons {property : String} {node : SchemaNode}
    {rest : List (String × SchemaNode)} {d d' d'' : ClassDecl}
    (h : NestsAll [(property, node)] d d') (h' : NestsAll rest d' d'') :
    NestsAll ((property, node) :: rest) d d'' := by
  intro name
  have h := h name
  have h' := h' name
  simp only [lastEnum?, Option.none_or] at h ⊢
  cases hrest : lastEnum? name rest with
  | some values =>
    rw [hrest] at h'
    exact h'
  | none =>
    rw [hrest] at h'
    rw [Option.none_or]
    dsimp only at h'
    rw [h']
    exact h

theorem fieldsAt_nests (hplacement : s.placement = .inline) (hwraps : s.wraps = .declaredValues)
    (site : Site) (howner : site.context.parent? = some owner) {required : List String}
    (properties : List (String × SchemaNode)) :
    ∀ {c d}, c.WellFormed s.digest → c.classes.class? owner.key = some d →
      Outcome (fieldsAt s required properties site) c
        (fun fields c' => List.Forall₂ (IsFieldOf owner required) properties fields ∧
          ∃ d', c'.classes.class? owner.key = some d' ∧ NestsAll properties d d')
        fun _ => True := by
  induction properties with
  | nil => exact fun {c d} _ hd => .pure ⟨.nil, d, hd, fun _ => rfl⟩
  | cons property rest ih =>
    obtain ⟨property, node⟩ := property
    intro c d hc hd
    refine fieldsAt_cons_outcome (.mono (Q := fun type c' => c'.WellFormed s.digest ∧
      IsFieldOf owner required (property, node)
        (.ofSchema property type (required.contains property) node.info) ∧
      ∃ d', c'.classes.class? owner.key = some d' ∧ NestsAll [(property, node)] d d') ?_ ?_
      fun _ h => h)
    · cases henum : enumUnder? property node with
      | some found =>
        obtain ⟨name, values⟩ := found
        refine ((typeAt_growing _ node (site.child property)).outcome (typeAt_nests hplacement node
          (site.child property) howner henum hwraps)).imp ?_
        rintro type _ ⟨hgrows, e, rfl, rfl, hvalues, hname⟩
        refine ⟨hgrows.wellFormed hc, ⟨rfl, fun name values h => ?_⟩, d.nestEnum e, ?_,
          fun name => ?_⟩
        · rw [henum] at h
          cases h
          exact hname
        · rw [class?_nest, hd, Option.map_some, if_pos rfl]
        · rw [lastEnum?, lastEnum?, Option.none_or, henum, Option.bind_some,
            ClassDecl.nestedEnum?_nestEnum]
          by_cases hsame : e.name = name
          · simp [hsame, hvalues]
          · simp [hsame, Ne.symm hsame]
      | none =>
        have hgrowing : Growing s.digest none none
            (typeAt s (some property) node (site.child property)) :=
          typeAt_growing_of_no_enum node henum
        refine (hgrowing c).mono (fun type c' hgrows => ?_) fun _ _ => trivial
        obtain ⟨d', hd', henums⟩ := hgrows.nestedEnums_eq hc.toConsistent hd nofun
        refine ⟨hgrows.wellFormed hc, ⟨rfl, fun name values h => ?_⟩, d', hd', fun name => ?_⟩
        · rw [henum] at h
          cases h
        · rw [lastEnum?, lastEnum?, Option.none_or, henum]
          exact congrArg (List.find? _) henums
    · rintro type c' ⟨hc', hfield, d', hd', hnests⟩
      refine (ih hc' hd').imp ?_
      rintro fields c'' ⟨hfields, d'', hd'', hnests'⟩
      exact ⟨.cons hfield hfields, d'', hd'', hnests.cons hnests'⟩

/-! ## Data classes -/

/-- The class says what its schema says: it has a field for each property, and its nested enums are
the last ones that the properties declare. -/
structure BuiltFrom (digest : Digest) (root : SchemaNode) (info : SchemaInfo) (shape : ObjectSchema)
    (d : ClassDecl) : Prop where
  within : Subschema root (.mk info (.object shape))
  fingerprint : d.fingerprint = (SchemaNode.mk info (.object shape)).fingerprint digest
  described : d.title? = info.title? ∧ d.description? = info.description? ∧
    d.deprecated = info.deprecated
  fields : List.Forall₂ (IsFieldOf d.typeName shape.required) shape.properties d.fields
  enums : ∀ name values, lastEnum? name shape.properties = some values →
    ∃ e, d.nestedEnum? name = some e ∧
      e.constants.map EnumConstant.value = EnumContent.presentValues values

/-- Every data class comes from a part of the schema. -/
def DataBuilt (digest : Digest) (root : SchemaNode) (c : Catalog) : Prop :=
  ∀ k d, c.classes.class? k = some d → d.kind = .data →
    ∃ info shape, BuiltFrom digest root info shape d

/-- What stands around is not a data class yet. -/
def OwnerOpen (c : Catalog) (owner? : Option TypeName) : Prop :=
  ∀ owner, owner? = some owner → ∃ d, c.classes.class? owner.key = some d ∧ d.kind ≠ .data

theorem OwnerOpen.kept {c' : Catalog} {owner? : Option TypeName} (h : OwnerOpen c owner?)
    (hkeeps : c.Keeps c') : OwnerOpen c' owner? := by
  intro owner howner
  obtain ⟨d, hd, hkind⟩ := h owner howner
  obtain ⟨d', hd', hgrow⟩ := hkeeps.classes hd
  exact ⟨d', hd', hgrow.kind_eq ▸ hkind⟩

namespace DataBuilt

variable {digest : Digest} {root : SchemaNode} {key : TypeKey}

theorem modifyClass (h : DataBuilt digest root c) {f : ClassDecl → ClassDecl}
    (hf : ∀ d, c.classes.class? key = some d → (f d).kind = .data →
      ∃ info shape, BuiltFrom digest root info shape (f d)) :
    DataBuilt digest root (c.modifyClass key f) := by
  intro k d' hd' hkind
  rw [class?_modifyClass, Option.map_eq_some_iff] at hd'
  obtain ⟨d, hd, hd'⟩ := hd'
  by_cases hk : k = key
  · rw [if_pos hk] at hd'
    subst hd' hk
    exact hf d hd hkind
  · rw [if_neg hk] at hd'
    subst hd'
    exact h k d hd hkind

theorem join (h : DataBuilt digest root c) (parent : TypeName) :
    DataBuilt digest root (c.modifyClass key (·.addSealedParent parent)) := by
  refine h.modifyClass fun d hd hkind => ?_
  obtain ⟨_, hgrow, _⟩ := d.addSealedParent_eq parent
  rw [hgrow] at hkind ⊢
  obtain ⟨info, shape, hbuilt⟩ := h key d hd hkind
  exact ⟨info, shape, hbuilt.within, hbuilt.fingerprint, hbuilt.described, hbuilt.fields,
    hbuilt.enums⟩

/-- A class that is no data class may get other members. -/
theorem modifyOpen (h : DataBuilt digest root c) (hopen : OwnerOpen c (some owner))
    {f : ClassDecl → ClassDecl} (hf : ∀ d, (f d).kind = d.kind) :
    DataBuilt digest root (c.modifyClass owner.key f) := by
  refine h.modifyClass fun d hd hkind => ?_
  obtain ⟨d', hd', hkind'⟩ := hopen owner rfl
  rw [hd, Option.some.injEq] at hd'
  subst hd'
  exact absurd (hf d ▸ hkind) hkind'

theorem nest (h : DataBuilt digest root c) (hopen : OwnerOpen c (some owner)) (e : EnumDecl) :
    DataBuilt digest root (c.nest owner.key e) :=
  fun k d hd hkind => h.modifyOpen hopen (f := (·.nestEnum e)) (fun _ => rfl) k d hd hkind

theorem addClass (h : DataBuilt digest root c) {d : ClassDecl} (hkind : d.kind ≠ .data) :
    DataBuilt digest root (c.addClass d) := by
  intro k d' hd' hkind'
  rw [class?_addClass] at hd'
  split at hd'
  · cases hd'
    exact absurd hkind' hkind
  · exact h k d' hd' hkind'

end DataBuilt

variable {root : SchemaNode} {name : String}

theorem declareEnum_built {hint? : Option String} {info : SchemaInfo} {content : EnumContent}
    {placement : EnumPlacement} (h : DataBuilt s.digest root c)
    (hopen : OwnerOpen c site.context.parent?) :
    Outcome (declareEnum s hint? info content site placement) c
      (fun _ c' => DataBuilt s.digest root c') fun _ => True := by
  refine declareEnum_outcome trivial ?_ (fun _ _ _ _ _ _ k d hd hkind => h k d hd hkind)
    fun _ _ _ _ _ _ => h
  exact fun _ owner _ _ howner => h.nest (howner ▸ hopen) _

theorem declareAlias_built {target : TypeRef} {parent : TypeName}
    (h : DataBuilt s.digest root c) :
    Outcome (declareAlias s name target parent site) c (fun _ c' => DataBuilt s.digest root c')
      fun _ => True :=
  declareAlias_outcome trivial (fun _ _ _ => h) fun _ _ _ k d hd hkind => h k d hd hkind

theorem joinVariant_built {type : TypeRef} {parent : TypeName} (h : DataBuilt s.digest root c) :
    Outcome (joinVariant s parent name type site) c (fun _ c' => DataBuilt s.digest root c')
      fun _ => True :=
  joinVariant_outcome (fun _ _ => h.join parent) fun _ => declareAlias_built h

theorem aliasVariants_built {parent : TypeName} (members : List (String × ScalarKind)) :
    ∀ {index c}, DataBuilt s.digest root c →
      Outcome (aliasVariants s parent site index members) c
        (fun _ c' => DataBuilt s.digest root c') fun _ => True := by
  induction members with
  | nil => exact fun h => .pure h
  | cons member rest ih =>
    exact fun h => aliasVariants_cons_outcome
      ((declareAlias_built h).imp fun _ _ h => ih h)

/-- Resolving the schema builds data classes from parts of the root only. -/
structure KeepsBuilt (s : ResolutionSettings) (root node : SchemaNode) : Prop where
  ofType : ∀ hint? site c, c.WellFormed s.digest → DataBuilt s.digest root c →
    OwnerOpen c site.context.parent? →
    Outcome (typeAt s hint? node site) c (fun _ c' => DataBuilt s.digest root c') fun _ => True
  ofClass : ∀ name site c, c.WellFormed s.digest → DataBuilt s.digest root c →
    Outcome (classAt s name node site) c (fun _ c' => DataBuilt s.digest root c') fun _ => True

theorem fieldsAt_built {properties : List (String × SchemaNode)} {required : List String}
    (h : ∀ property ∈ properties, KeepsBuilt s root property.2) :
    ∀ {c}, c.WellFormed s.digest → DataBuilt s.digest root c →
      OwnerOpen c site.context.parent? →
      Outcome (fieldsAt s required properties site) c (fun _ c' => DataBuilt s.digest root c')
        fun _ => True := by
  induction properties with
  | nil => exact fun _ hbuilt _ => .pure hbuilt
  | cons property rest ih =>
    intro c hc hbuilt hopen
    have hproperty := (h property List.mem_cons_self).ofType (some property.1)
      (site.child property.1) c hc hbuilt hopen
    refine fieldsAt_cons_outcome (((typeAt_growing _ _ _).outcome hproperty).imp ?_)
    rintro type c' ⟨hgrows, hbuilt'⟩
    exact ih (fun property hmem => h property (List.mem_cons_of_mem _ hmem)) (hgrows.wellFormed hc)
      hbuilt' (hopen.kept (hgrows.keeps hc.toConsistent))

theorem variantsFrom_built {alternatives : List SchemaNode} {parent : TypeName}
    (h : ∀ node ∈ alternatives, KeepsBuilt s root node) :
    ∀ {index c}, c.WellFormed s.digest → DataBuilt s.digest root c →
      OwnerOpen c site.context.parent? →
      Outcome (variantsFrom s parent alternatives index site) c
        (fun _ c' => DataBuilt s.digest root c') fun _ => True := by
  induction alternatives with
  | nil =>
    intro _ c _ hbuilt _
    rw [variantsFrom]
    exact .pure hbuilt
  | cons node rest ih =>
    intro index c hc hbuilt hopen
    have hnode := h node List.mem_cons_self
    refine variantsFrom_cons_outcome (R := fun _ c' =>
      Grows s.digest site.context.parent? none c c' ∧ DataBuilt s.digest root c') ?_ ?_ ?_
    · intro _
      exact (classAt_growing _ node _).of_unowned.outcome (hnode.ofClass _ _ c hc hbuilt)
    · intro _
      exact (typeAt_growing _ node (site.child _)).outcome
        (hnode.ofType _ (site.child _) c hc hbuilt hopen)
    · rintro type c₁ ⟨hgrows, hbuilt₁⟩
      have hc₁ := hgrows.wellFormed hc
      have hopen₁ := hopen.kept (hgrows.keeps hc.toConsistent)
      refine ((joinVariant_growing parent _ type).outcome
        (joinVariant_built hbuilt₁)).imp ?_
      rintro variant c₂ ⟨hgrows', hbuilt₂⟩
      exact ih (fun node hmem => h node (List.mem_cons_of_mem _ hmem)) (hgrows'.wellFormed hc₁)
        hbuilt₂ (hopen₁.kept (hgrows'.keeps hc₁.toConsistent))

/-- A class that is no data class yet is there as soon as it has its name, and takes enums. -/
theorem addClassFrame_built (hc : c.WellFormed s.digest) (hbuilt : DataBuilt s.digest root c)
    (info : SchemaInfo) (shape : ObjectSchema) (kind : ClassKind) (hkind : kind ≠ .data)
    {type : TypeName} (htop : type.IsTopLevel site.package) (hfree : c.IsFree type.key) :
    (c.addClass (classFrame s info shape site kind type)).WellFormed s.digest ∧
      (c.addClass (classFrame s info shape site kind type)).classes.class? type.key =
        some (classFrame s info shape site kind type) ∧
      DataBuilt s.digest root (c.addClass (classFrame s info shape site kind type)) ∧
      OwnerOpen (c.addClass (classFrame s info shape site kind type)) (some type) := by
  have hclass : (c.addClass (classFrame s info shape site kind type)).classes.class? type.key =
      some (classFrame s info shape site kind type) := class?_addClass_self _ _
  refine ⟨hc.addClassFrame htop.2 hfree, hclass, hbuilt.addClass hkind, ?_⟩
  rintro _ ⟨⟩
  exact ⟨_, hclass, hkind⟩

theorem classOf_built (hplacement : s.placement = .inline) (hwraps : s.wraps = .declaredValues)
    {info : SchemaInfo} {shape : ObjectSchema}
    (hwithin : Subschema root (.mk info (.object shape)))
    (hproperties : ∀ property ∈ shape.properties, KeepsBuilt s root property.2)
    (halternatives : ∀ alternatives, shape.oneOf? = some alternatives →
      ∀ node ∈ alternatives, KeepsBuilt s root node)
    (hvalues : ∀ values, shape.mapValues? = some values → KeepsBuilt s root values.schema)
    (hc : c.WellFormed s.digest) (hbuilt : DataBuilt s.digest root c) :
    Outcome (classOf s name info shape (partsOf s shape) site) c
      (fun _ c' => DataBuilt s.digest root c') fun _ => True := by
  refine classOf_outcome trivial (fun _ _ _ _ => hbuilt) ?_ ?_ ?_
  · intro type alternatives _ honeOf ⟨htop, _, _⟩ hfree
    obtain ⟨hc₁, _, hbuilt₁, hopen⟩ :=
      addClassFrame_built hc hbuilt info shape .sealed nofun htop hfree
    have hvariants : Outcome (sealedVariants s alternatives type ((site.inside type).child "oneOf"))
        (c.addClass (classFrame s info shape site .sealed type))
        (fun _ c' => DataBuilt s.digest root c') fun _ => True := by
      unfold sealedVariants
      split
      · exact aliasVariants_built _ hbuilt₁
      · exact variantsFrom_built (halternatives _ honeOf) hc₁ hbuilt₁ hopen
    refine ((sealedVariants_growing alternatives type ((site.inside type).child "oneOf")).outcome
      hvariants).imp ?_
    rintro variants c' ⟨hgrows, hbuilt'⟩
    exact hbuilt'.modifyOpen (hopen.kept (hgrows.keeps hc₁.toConsistent)) fun _ => rfl
  · intro type values _ _ hmapValues ⟨htop, _, _⟩ hfree
    obtain ⟨hc₁, _, hbuilt₁, hopen⟩ :=
      addClassFrame_built hc hbuilt info shape .mapWrapper nofun htop hfree
    refine ((typeAt_growing _ _ _).outcome ((hvalues values hmapValues).ofType _
      ((site.inside type).child _) _ hc₁ hbuilt₁ hopen)).imp ?_
    rintro value c' ⟨hgrows, hbuilt'⟩
    exact hbuilt'.modifyOpen (hopen.kept (hgrows.keeps hc₁.toConsistent)) fun _ => rfl
  · intro type _ _ _ ⟨htop, _, _⟩ hfree
    obtain ⟨hc₁, hclass, hbuilt₁, hopen⟩ :=
      addClassFrame_built hc hbuilt info shape .plain nofun htop hfree
    refine (((fieldsAt_growing shape.required shape.properties).outcome
      (fieldsAt_built hproperties hc₁ hbuilt₁ hopen)).and
      (fieldsAt_nests hplacement hwraps (site.inside type) rfl shape.properties hc₁ hclass)).mono
      ?_ fun _ _ => trivial
    rintro fields c' ⟨⟨hgrows, hbuilt'⟩, hfields, d, hd, hnests⟩
    -- the class is the frame, grown by the enums of its fields
    refine hbuilt'.modifyClass fun d' hd' _ => ⟨info, shape, ?_⟩
    rw [hd, Option.some.injEq] at hd'
    subst hd'
    obtain ⟨d', hd', hgrow⟩ := (hgrows.keeps hc₁.toConsistent).classes hclass
    rw [hd, Option.some.injEq] at hd'
    subst hd'
    obtain ⟨_, _, rfl, _⟩ := hgrow
    refine ⟨hwithin, rfl, ⟨rfl, rfl, rfl⟩, hfields, fun name values hlast => ?_⟩
    have h := hnests name
    rw [hlast] at h
    exact h

theorem keepsBuilt (hplacement : s.placement = .inline) (hwraps : s.wraps = .declaredValues)
    (node : SchemaNode) : Subschema root node → KeepsBuilt s root node := by
  induction node using SchemaNode.byChildren with
  | scalar info kind =>
    refine fun _ => ⟨fun hint? site c _ hbuilt hopen => ?_,
      fun _ _ _ _ _ => classAt_outcome_of_not_object rfl trivial⟩
    exact typeAt_scalar_outcome trivial (fun _ => hbuilt) fun _ _ _ _ =>
      declareEnum_built hbuilt hopen
  | null info =>
    exact fun _ => ⟨fun _ _ _ _ hbuilt _ => typeAt_null_outcome trivial hbuilt,
      fun _ _ _ _ _ => classAt_outcome_of_not_object rfl trivial⟩
  | array info items ih =>
    refine fun hwithin => ⟨fun hint? site c hc hbuilt hopen => ?_,
      fun _ _ _ _ _ => classAt_outcome_of_not_object rfl trivial⟩
    exact typeAt_array_outcome trivial
      ((ih hwithin.items).ofType _ (site.child "items") c hc hbuilt hopen)
  | object info shape hproperties halternatives hvalues =>
    intro hwithin
    have hclass {name : String} {site : Site} {c : Catalog} (hc : c.WellFormed s.digest)
        (hbuilt : DataBuilt s.digest root c) :
        Outcome (classOf s name info shape (partsOf s shape) site) c
          (fun _ c' => DataBuilt s.digest root c') fun _ => True :=
      classOf_built hplacement hwraps hwithin
        (fun property hmem => hproperties property hmem (hwithin.property hmem))
        (fun alternatives honeOf node hmem => halternatives alternatives honeOf node hmem
          (hwithin.alternative honeOf hmem))
        (fun values hmap => hvalues values hmap (hwithin.mapValues hmap)) hc hbuilt
    constructor
    · intro hint? site c hc hbuilt hopen
      refine typeAt_object_outcome trivial ?_ ?_ ?_
      · exact fun _ _ _ _ => declareEnum_built hbuilt hopen
      · exact fun values _ _ hmap => (hvalues values hmap (hwithin.mapValues hmap)).ofType _
          (site.child _) c hc hbuilt hopen
      · exact fun _ _ _ _ => hclass hc hbuilt
    · exact fun _ _ _ hc hbuilt => classAt_object_outcome trivial (hclass hc hbuilt)

/-- Where enums stand in classes, the field of a property that declares values mentions an enum in
its class, and that enum holds the values of the last property that leads to its name. Null makes no
constant. -/
theorem data_class_enums (hplacement : s.placement = .inline) (hwraps : s.wraps = .declaredValues)
    {name package : String} {node : SchemaNode} {context : NamingContext} {type : TypeName}
    {st : ResolutionState} (hrun : resolveClass s name node package context {} = .ok type st)
    {key : TypeKey} {d : ClassDecl} (hd : st.catalog.classes.class? key = some d)
    (hkind : d.kind = .data) :
    ∃ info shape, Subschema node (.mk info (.object shape)) ∧
      d.fingerprint = (SchemaNode.mk info (.object shape)).fingerprint s.digest ∧
      (d.title? = info.title? ∧ d.description? = info.description? ∧
        d.deprecated = info.deprecated) ∧
      List.Forall₂ (fun property field =>
        field = .ofSchema property.1 field.type (shape.required.contains property.1)
          property.2.info ∧
        ∀ name values, enumUnder? property.1 property.2 = some (name, values) →
          field.type.enumName? = some { package := d.package, name, owner? := some d.name } ∧
          ∃ e held, d.nestedEnum? name = some e ∧ lastEnum? name shape.properties = some held ∧
            e.constants.map EnumConstant.value = EnumContent.presentValues held)
        shape.properties d.fields := by
  have hout : Outcome (resolveClass s name node package context) ({} : ResolutionState).catalog
      (fun _ c' => DataBuilt s.digest node c') fun _ => True :=
    (keepsBuilt hplacement hwraps node .root).ofClass name { package, context, path := name } {}
      (wellFormed_empty _) fun _ _ h => by cases h
  have hbuilt : DataBuilt s.digest node st.catalog := hout.of_ok hrun
  obtain ⟨info, shape, h⟩ := hbuilt key d hd hkind
  refine ⟨info, shape, h.within, h.fingerprint, h.described, ?_⟩
  have hmem : List.Forall₂ (fun property field => property ∈ shape.properties ∧
      IsFieldOf d.typeName shape.required property field) shape.properties d.fields :=
    List.forall₂_and_left .. |>.mpr ⟨fun _ h => h, h.fields⟩
  refine hmem.imp fun property field ⟨hmem, hfield, henum⟩ =>
    ⟨hfield, fun name values hdeclared => ?_⟩
  obtain ⟨held, hheld⟩ := Option.ne_none_iff_exists'.mp fun h =>
    lastEnum?_eq_none_iff.mp h property hmem values hdeclared
  obtain ⟨e, he, hvalues⟩ := h.enums name held hheld
  exact ⟨henum name values hdeclared, e, held, he, hheld, hvalues⟩

/-- The items of one property and another property, each with an enum that is named alike. -/
def twoModes : SchemaNode :=
  let mode (value : String) : SchemaNode :=
    .mk { enumeration? := some [.string value] } (.scalar .string)
  .ofProperties [("modes", .mk {} (.array (mode "a"))), ("modesItem", mode "b")] []

/-- What is to be seen of the class of `twoModes`. -/
def twoModesClass? : Option (ClassKind × List (String × TypeRef) × Option (List (Option String))) :=
  match resolveClass { digest := plainDigest } "Lamp" twoModes "p" .root {} with
  | .ok _ st => (st.catalog.classes.class? { package := "p", name := "Lamp" }).map fun d =>
    (d.kind, d.fields.map fun field => (field.jsonName, field.type),
      (d.nestedEnum? "ModesItem").map fun e => e.constants.map (·.value.string?))
  | .error _ _ => none

theorem twoModesClass?_eq : twoModesClass? =
    let type := TypeRef.enumType { package := "p", name := "ModesItem", owner? := some "Lamp" }
    some (.data, [("modes", .list type), ("modesItem", type)], some [some "b"]) := by decide +kernel

/-- The class of `twoModes`. -/
theorem exists_twoModesClass : ∃ type st d,
    resolveClass { digest := plainDigest } "Lamp" twoModes "p" .root {} = .ok type st ∧
      st.catalog.classes.class? { package := "p", name := "Lamp" } = some d ∧
      twoModesClass? = some (d.kind, d.fields.map fun field => (field.jsonName, field.type),
        (d.nestedEnum? "ModesItem").map fun e => e.constants.map (·.value.string?)) := by
  have h := twoModesClass?_eq
  rw [twoModesClass?] at h ⊢
  cases hrun : resolveClass { digest := plainDigest } "Lamp" twoModes "p" .root {} with
  | error e st =>
    rw [hrun] at h
    cases h
  | ok type st =>
    rw [hrun] at h
    obtain ⟨d, hd, _⟩ := Option.map_eq_some_iff.mp h
    exact ⟨type, st, d, rfl, hd, congrArg (Option.map _) hd⟩

/-- The enum of the first property is replaced by that of the second. -/
theorem twoModes_enum_replaced : ∃ type st d,
    resolveClass { digest := plainDigest } "Lamp" twoModes "p" .root {} = .ok type st ∧
      st.catalog.classes.class? { package := "p", name := "Lamp" } = some d ∧ d.kind = .data ∧
      (∃ field ∈ d.fields, field.jsonName = "modes" ∧ field.type =
        .list (.enumType { package := "p", name := "ModesItem", owner? := some "Lamp" })) ∧
      ∃ e, d.nestedEnum? "ModesItem" = some e ∧
        e.constants.map EnumConstant.value ≠ EnumContent.presentValues [.string "a"] := by
  obtain ⟨type, st, d, hrun, hd, hseen⟩ := exists_twoModesClass
  rw [twoModesClass?_eq] at hseen
  simp only [Option.some.injEq, Prod.mk.injEq] at hseen
  obtain ⟨hkind, hfields, henum⟩ := hseen
  obtain ⟨e, he, hvalues⟩ := Option.map_eq_some_iff.mp henum.symm
  refine ⟨type, st, d, hrun, hd, hkind.symm, ?_, e, he, fun h => ?_⟩
  · have hmem : ("modes", TypeRef.list (.enumType
        { package := "p", name := "ModesItem", owner? := some "Lamp" })) ∈
        d.fields.map fun field => (field.jsonName, field.type) := by
      rw [← hfields]
      exact List.mem_cons_self
    obtain ⟨field, hmem, hfield⟩ := List.mem_map.mp hmem
    exact ⟨field, hmem, congrArg Prod.fst hfield, congrArg Prod.snd hfield⟩
  · have htexts := congrArg (List.map Json.string?) h
    rw [List.map_map] at htexts
    rw [show (Json.string? ∘ EnumConstant.value) = fun e => e.value.string? from rfl,
      hvalues] at htexts
    simp [EnumContent.presentValues, Json.isNull, Json.string?] at htexts

theorem data_class_enums_twoModes : ∃ type st d,
    resolveClass { digest := plainDigest } "Lamp" twoModes "p" .root {} = .ok type st ∧
      st.catalog.classes.class? { package := "p", name := "Lamp" } = some d ∧ d.kind = .data ∧
      ∃ shape : ObjectSchema,
        List.Forall₂ (fun property _ =>
          ∀ name values, enumUnder? property.1 property.2 = some (name, values) →
            ∃ e held, d.nestedEnum? name = some e ∧
              lastEnum? name shape.properties = some held ∧
              e.constants.map EnumConstant.value = EnumContent.presentValues held)
          shape.properties d.fields := by
  obtain ⟨type, st, d, hrun, hd, hseen⟩ := exists_twoModesClass
  rw [twoModesClass?_eq] at hseen
  simp only [Option.some.injEq, Prod.mk.injEq] at hseen
  have hkind : d.kind = .data := hseen.1.symm
  obtain ⟨_, shape, _, _, _, hfields⟩ := data_class_enums rfl rfl hrun hd hkind
  exact ⟨type, st, d, hrun, hd, hkind, shape, hfields.imp fun _ _ h name values hdeclared =>
    (h.2 name values hdeclared).2⟩

end Resolution

end ThingTypes
