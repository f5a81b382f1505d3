import ThingTypes.Proofs.Resolution.Declaring

/-
  The rules for the types of schemas, from outcomes for their children. A rule has one premise for
  each way the type can come about, with what is known there; the premises about failure say that
  nothing has been declared yet.
-/

namespace ThingTypes

/-- Only the members of a feature are in another package than their class. -/
theorem Site.innerPackage_inside (site : Site) (owner : TypeName) :
    (site.inside owner).innerPackage = site.innerPackage := by
  have hrole : (site.inside owner).context.role ≠ .feature := by
    change site.context.role.descend ≠ .feature
    cases site.context.role <;> simp [Role.descend]
  rw [innerPackage]
  split
  · exact absurd ‹_› hrole
  · rfl

namespace Resolution

/-- How the parts of an object resolve, each from the schemas of its children. -/
def partsOf (s : ResolutionSettings) (shape : ObjectSchema) : ObjectParts where
  fields := fieldsAt s shape.required shape.properties
  variants := alternativesAt s shape.oneOf?
  mapValue := mapValueAt s shape.mapValues?

/-- The alternatives of a sealed class: aliases if each is a class around one scalar. -/
def sealedVariants (s : ResolutionSettings) (alternatives : List SchemaNode)
    (sealedClass : TypeName) (site : Site) : ResolveM (List TypeRef) :=
  match soleScalars? alternatives with
  | some members => aliasVariants s sealedClass site 0 members
  | none => variantsFrom s sealedClass alternatives 0 site

theorem typeAt_eq_of_object (s : ResolutionSettings) (hint? : Option String) (info : SchemaInfo)
    (shape : ObjectSchema) (site : Site) :
    typeAt s hint? (.mk info (.object shape)) site =
      nested s site (objectType s hint? info shape (partsOf s shape) site) := by
  cases shape
  rw [typeAt, partsOf]

theorem classAt_eq_of_object (s : ResolutionSettings) (name : String) (info : SchemaInfo)
    (shape : ObjectSchema) (site : Site) :
    classAt s name (.mk info (.object shape)) site =
      nested s site (classOf s name info shape (partsOf s shape) site) := by
  cases shape
  rw [classAt, partsOf]

/-- Only objects resolve to classes. -/
theorem classAt_eq_of_not_object (s : ResolutionSettings) (name : String) {node : SchemaNode}
    (hnode : node.object? = none) (site : Site) :
    classAt s name node site = nested s site (unsupported site (.notAClass node.typeName)) := by
  obtain ⟨info, kind⟩ := node
  cases kind with
  | object shape => cases hnode
  | scalar kind => rw [classAt]
  | null => rw [classAt]
  | array items => rw [classAt]

variable {c : Catalog} {s : ResolutionSettings} {site : Site} {E : Catalog → Prop}
  {hint? : Option String} {name : String} {info : SchemaInfo} {shape : ObjectSchema}

/-! ## Scalars, arrays and objects -/

theorem typeAt_scalar_outcome {kind : ScalarKind} {Q : TypeRef → Catalog → Prop} (herror : E c)
    (hprimitive : (SchemaNode.mk info (.scalar kind)).enumValues? = none ∨
      s.wraps (.mk info (.scalar kind)) kind = false → Q (.primitive kind) c)
    (henum : ∀ values content, (SchemaNode.mk info (.scalar kind)).enumValues? = some values →
      EnumContent.ofScalars s.digest kind values site.path = .ok content →
      Outcome (declareEnum s hint? info content site s.placement) c
        (fun type c' => Q (.enumType type) c') E) :
    Outcome (typeAt s hint? (.mk info (.scalar kind)) site) c Q E := by
  rw [typeAt]
  refine .nested ?_ herror
  unfold scalarType
  dsimp only
  cases hvalues : (SchemaNode.mk info (.scalar kind)).enumValues? with
  | none => exact .pure (hprimitive (.inl hvalues))
  | some values =>
    by_cases hwraps : s.wraps (.mk info (.scalar kind)) kind = true
    · simp only [hwraps, if_true]
      refine .bind (.liftExcept (Q := fun content c' => Outcome (declareEnum s hint? info content
        site s.placement) c' (fun type c' => Q (.enumType type) c') E)
        (fun content h => henum values content hvalues h) herror) fun _ _ h => ?_
      exact .bind h fun _ _ h => .pure h
    · simp only [hwraps]
      exact .pure (hprimitive (.inr (by simpa using hwraps)))

theorem typeAt_null_outcome {Q : TypeRef → Catalog → Prop} (herror : E c) (h : Q .unit c) :
    Outcome (typeAt s hint? (.mk info .null) site) c Q E := by
  rw [typeAt]
  exact .nested (.pure h) herror

theorem typeAt_array_outcome {items : SchemaNode} {Q : TypeRef → Catalog → Prop} (herror : E c)
    (h : Outcome (typeAt s (itemHint? hint? items.info) items (site.child "items")) c
      (fun type c' => Q (.list type) c') E) :
    Outcome (typeAt s hint? (.mk info (.array items)) site) c Q E := by
  rw [typeAt]
  exact .nested (.bind h fun _ _ h => .pure h) herror

theorem typeAt_object_outcome {Q : TypeRef → Catalog → Prop} (herror : E c)
    (henum : ∀ values content, (SchemaNode.mk info (.object shape)).enumValues? = some values →
      EnumContent.ofRecords s.digest shape.properties values site.path = .ok content →
      Outcome (declareEnum s hint? info content site s.placement) c
        (fun type c' => Q (.enumType type) c') E)
    (hmap : ∀ values, (SchemaNode.mk info (.object shape)).enumValues? = none →
      shape.oneOf? = none → shape.mapValues? = some values →
      Outcome (typeAt s (itemHint? hint? values.schema.info) values.schema
        (site.child values.keyword.name)) c (fun type c' => Q (.map type) c') E)
    (hclass : ∀ name, (SchemaNode.mk info (.object shape)).enumValues? = none →
      (shape.oneOf? = none → shape.mapValues? = none) → hintedName? hint? info.title? = some name →
      Outcome (classOf s name info shape (partsOf s shape) site) c
        (fun type c' => Q (.classType type) c') E) :
    Outcome (typeAt s hint? (.mk info (.object shape)) site) c Q E := by
  rw [typeAt_eq_of_object]
  refine .nested ?_ herror
  unfold objectType
  dsimp only
  cases hvalues : (SchemaNode.mk info (.object shape)).enumValues? with
  | some values =>
    refine .bind (.liftExcept (Q := fun content c' => Outcome (declareEnum s hint? info content site
      s.placement) c' (fun type c' => Q (.enumType type) c') E)
      (fun content h => henum values content hvalues h) herror) fun _ _ h => ?_
    exact .bind h fun _ _ h => .pure h
  | none =>
    dsimp only
    split
    · rename_i values honeOf hmapValues
      have h := hmap values hvalues honeOf hmapValues
      refine .bind (Q := fun type c' => Q (.map type) c') ?_ fun _ _ h => .pure h
      rw [partsOf, hmapValues]
      cases values
      simpa only [mapValueAt] using h
    · rename_i hnotMap
      have hclassed : shape.oneOf? = none → shape.mapValues? = none := fun honeOf =>
        Option.eq_none_iff_forall_ne_some.mpr fun values => hnotMap values honeOf
      cases hname : hintedName? hint? info.title? with
      | none => exact .malformed herror
      | some name => exact .bind (hclass name hvalues hclassed hname) fun _ _ h => .pure h

/-! ## Classes -/

/-- What is said of a class by its schema alone, before its members are known. -/
def classFrame (s : ResolutionSettings) (info : SchemaInfo) (shape : ObjectSchema) (site : Site)
    (kind : ClassKind) (type : TypeName) : ClassDecl :=
  .ofSchema type ((SchemaNode.mk info (.object shape)).fingerprint s.digest) kind site.context.role
    info

theorem typeName_classFrame {kind : ClassKind} {type : TypeName} {package : String}
    (htop : type.IsTopLevel package) : (classFrame s info shape site kind type).typeName = type :=
  htop.typeName_eq

theorem classOf_outcome {Q : TypeName → Catalog → Prop} (herror : E c)
    (hexisting : ∀ type, (SchemaNode.mk info (.object shape)).enumValues? = none →
      Offers s site name type →
      c.classes.table.get? type.key =
        some ((SchemaNode.mk info (.object shape)).fingerprint s.digest) → Q type c)
    (hsealed : ∀ type alternatives, (SchemaNode.mk info (.object shape)).enumValues? = none →
      shape.oneOf? = some alternatives → Offers s site name type → c.IsFree type.key →
      Outcome (sealedVariants s alternatives type ((site.inside type).child "oneOf"))
        (c.addClass (classFrame s info shape site .sealed type))
        (fun variants c' => Q type (c'.modifyClass type.key fun d => { d with variants })) E)
    (hwrapper : ∀ type values, (SchemaNode.mk info (.object shape)).enumValues? = none →
      shape.oneOf? = none → shape.mapValues? = some values → Offers s site name type →
      c.IsFree type.key →
      Outcome (typeAt s (some (type.name ++ "Item")) values.schema
          ((site.inside type).child values.keyword.name))
        (c.addClass (classFrame s info shape site .mapWrapper type))
        (fun value c' =>
          Q type (c'.modifyClass type.key fun d => { d with mapValue? := some value }))
        E)
    (hplain : ∀ type, (SchemaNode.mk info (.object shape)).enumValues? = none →
      shape.oneOf? = none → shape.mapValues? = none → Offers s site name type →
      c.IsFree type.key →
      Outcome (fieldsAt s shape.required shape.properties (site.inside type))
        (c.addClass (classFrame s info shape site .plain type))
        (fun fields c' => Q type (c'.modifyClass type.key (·.withFields fields))) E) :
    Outcome (classOf s name info shape (partsOf s shape) site) c Q E := by
  unfold classOf
  dsimp only
  cases hvalues : (SchemaNode.mk info (.object shape)).enumValues? with
  | some values => exact .unsupported herror
  | none =>
    simp only [Option.isSome_none, Bool.false_eq_true, if_false]
    cases honeOf : shape.oneOf? with
    | some alternatives =>
      refine declareClass_outcome herror (hexisting · hvalues) fun type hoffers hfree => ?_
      have h := hsealed type alternatives hvalues honeOf hoffers hfree
      unfold sealedVariants at h
      cases hsole : soleScalars? alternatives with
      | some members =>
        rw [hsole] at h
        exact .bind h fun _ _ h => .pure h
      | none =>
        rw [hsole] at h
        refine .bind ?_ fun _ _ h => .pure h
        rw [partsOf, honeOf]
        simp only [alternativesAt]
        exact h
    | none =>
      cases hmapValues : shape.mapValues? with
      | some values =>
        refine declareClass_outcome herror (hexisting · hvalues) fun type hoffers hfree => ?_
        refine .bind (Q := fun value c' => Q type (c'.modifyClass type.key fun d =>
          { d with mapValue? := some value })) ?_ fun _ _ h => .pure h
        have h := hwrapper type values hvalues honeOf hmapValues hoffers hfree
        rw [partsOf, hmapValues]
        cases values
        simp only [mapValueAt]
        exact h
      | none =>
        refine declareClass_outcome herror (hexisting · hvalues) fun type hoffers hfree => ?_
        refine .bind (Q := fun fields c' => Q type (c'.modifyClass type.key (·.withFields fields)))
          ?_ fun _ _ h => .pure h
        exact hplain type hvalues honeOf hmapValues hoffers hfree

theorem classAt_object_outcome {Q : TypeName → Catalog → Prop} (herror : E c)
    (h : Outcome (classOf s name info shape (partsOf s shape) site) c Q E) :
    Outcome (classAt s name (.mk info (.object shape)) site) c Q E := by
  rw [classAt_eq_of_object]
  exact .nested h herror

theorem classAt_outcome_of_not_object {node : SchemaNode} {Q : TypeName → Catalog → Prop}
    (hnode : node.object? = none) (herror : E c) :
    Outcome (classAt s name node site) c Q E := by
  rw [classAt_eq_of_not_object s name hnode]
  exact .nested (.unsupported herror) herror

/-! ## Members -/

theorem fieldsAt_cons_outcome {required : List String} {node : SchemaNode}
    {rest : List (String × SchemaNode)} {Q : List FieldDecl → Catalog → Prop}
    (h : Outcome (typeAt s (some name) node (site.child name)) c
      (fun type c' => Outcome (fieldsAt s required rest site) c'
        (fun fields c'' =>
          Q (.ofSchema name type (required.contains name) node.info :: fields) c'') E) E) :
    Outcome (fieldsAt s required ((name, node) :: rest) site) c Q E := by
  rw [fieldsAt]
  exact .bind h fun _ _ h => .bind h fun _ _ h => .pure h

theorem aliasVariants_cons_outcome {sealedClass : TypeName} {index : Nat} {kind : ScalarKind}
    {rest : List (String × ScalarKind)} {Q : List TypeRef → Catalog → Prop}
    (h : Outcome (declareAlias s name (.primitive kind) sealedClass (site.child (toString index))) c
      (fun type c' => Outcome (aliasVariants s sealedClass site (index + 1) rest) c'
        (fun types c'' => Q (.aliasType type :: types) c'') E) E) :
    Outcome (aliasVariants s sealedClass site index ((name, kind) :: rest)) c Q E := by
  rw [aliasVariants]
  exact .bind h fun _ _ h => .bind h fun _ _ h => .pure h

/-- An alternative joins its sealed class as the class that it is, or else as an alias. -/
theorem joinVariant_outcome {sealedClass : TypeName} {type : TypeRef}
    {Q : TypeRef → Catalog → Prop}
    (hclass : ∀ variant, type = .classType variant →
      Q (.classType variant) (c.modifyClass variant.key (·.addSealedParent sealedClass)))
    (halias : (∀ variant, type ≠ .classType variant) →
      Outcome (declareAlias s name type sealedClass site) c
        (fun type c' => Q (.aliasType type) c') E) :
    Outcome (joinVariant s sealedClass name type site) c Q E := by
  unfold joinVariant
  split
  · have h := hclass _ rfl
    exact .bind (.modifyCatalog (Q := fun _ c' => Q (.classType _) c') h) fun _ _ h => .pure h
  · rename_i hother
    have h := halias hother
    exact .bind h fun _ _ h => .pure h

theorem variantsFrom_cons_outcome {sealedClass : TypeName} {node : SchemaNode}
    {rest : List SchemaNode} {index : Nat} {Q : List TypeRef → Catalog → Prop}
    {R : TypeRef → Catalog → Prop}
    (hclass : isClassShaped node = true →
      Outcome (classAt s (variantName sealedClass index node) node (site.child (toString index))) c
        (fun type c' => R (.classType type) c') E)
    (hother : isClassShaped node = false →
      Outcome (typeAt s (some (variantName sealedClass index node)) node
        (site.child (toString index))) c R E)
    (h : ∀ type c', R type c' →
      Outcome (joinVariant s sealedClass (variantName sealedClass index node) type
          (site.child (toString index))) c'
        (fun variant c'' => Outcome (variantsFrom s sealedClass rest (index + 1) site) c''
          (fun variants c''' => Q (variant :: variants) c''') E) E) :
    Outcome (variantsFrom s sealedClass (node :: rest) index site) c Q E := by
  rw [variantsFrom]
  have hrest : ∀ type c', R type c' → Outcome (do
      let variant ← joinVariant s sealedClass (variantName sealedClass index node) type
        (site.child (toString index))
      let variants ← variantsFrom s sealedClass rest (index + 1) site
      return variant :: variants) c' Q E := fun type c' hR =>
    .bind (h type c' hR) fun _ _ h => .bind h fun _ _ h => .pure h
  cases hshaped : isClassShaped node with
  | true => exact .bind (.map (hclass hshaped)) hrest
  | false => exact .bind (hother hshaped) hrest

end Resolution

end ThingTypes
