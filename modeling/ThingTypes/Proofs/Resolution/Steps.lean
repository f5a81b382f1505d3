import ThingTypes.Proofs.Resolution.Calls
import ThingTypes.Proofs.Resolution.Running

/-
  What resolutions are made of. Whatever schema they resolve, they claim names of classes, change
  classes and aliases, declare enums, and put such steps together; and the packages they do so in
  are those of the site they start from. A property of resolutions that comes with the steps and
  is kept when they are put together (`StepRules`) is therefore one of every resolution and of
  every call. The rules carry what is known of a result along, since a later step may depend on it:
  an alternative joins a sealed class by the name it resolved to.
-/

namespace ThingTypes

/-- A type that is of these packages, if it is a class. -/
def TypeRef.ClassWithin (mine : String → Prop) (type : TypeRef) : Prop :=
  ∀ variant, type = .classType variant → mine variant.package

namespace Resolution

/-- A site all of whose packages have the property: its own, the one of what stands inside, and the
one of the class it stands in. -/
structure SiteWithin (mine : String → Prop) (site : Site) : Prop where
  package : mine site.package
  inner : mine site.innerPackage
  parent : ∀ owner, site.context.parent? = some owner → mine owner.package

namespace SiteWithin

variable {mine : String → Prop} {site : Site}

theorem child (h : SiteWithin mine site) (segment : String) :
    SiteWithin mine (site.child segment) :=
  ⟨h.package, h.inner, h.parent⟩

theorem inside (h : SiteWithin mine site) {owner : TypeName}
    (howner : owner.package = site.package) : SiteWithin mine (site.inside owner) where
  package := h.inner
  inner := by
    rw [site.innerPackage_inside]
    exact h.inner
  parent := by
    rintro _ ⟨⟩
    rw [howner]
    exact h.package

end SiteWithin

/-- The steps of resolutions within `mine` packages have the property `J`, and putting resolutions
together keeps it. The second argument of `J` is what is known of the result. -/
structure StepRules (s : ResolutionSettings) (mine : String → Prop)
    (J : ∀ {α : Type}, ResolveM α → (α → Prop) → Prop) : Prop where
  pure {α : Type} {a : α} {R : α → Prop} : R a → J (Pure.pure a) R
  throw {α : Type} {R : α → Prop} (e : GenerationError) : J (MonadExcept.throw e : ResolveM α) R
  bind {α β : Type} {x : ResolveM α} {f : α → ResolveM β} {Q : α → Prop} {R : β → Prop} :
    J x Q → (∀ a, Q a → J (f a) R) → J (x >>= f) R
  nested {α : Type} {x : ResolveM α} {R : α → Prop} {site : Site} : J x R → J (nested s site x) R
  claimClass {name : String} {fingerprint : Fingerprint} {site : Site} : mine site.package →
    J (claimClass s name fingerprint site) fun slot => slot.type.package = site.package
  addClass {d : ClassDecl} : mine d.package →
    J (modifyCatalog fun c => { c with classes := c.classes.insertClass d }) fun _ => True
  addAlias {a : AliasDecl} : mine a.package →
    J (modifyCatalog fun c => { c with classes := c.classes.insertAlias a }) fun _ => True
  modifyClass {key : TypeKey} {f : ClassDecl → ClassDecl} : mine key.package →
    J (modifyCatalog (·.modifyClass key f)) fun _ => True
  declareEnum {hint? : Option String} {info : SchemaInfo} {content : EnumContent} {site : Site}
    {placement : EnumPlacement} : SiteWithin mine site →
    placement = s.placement ∨ placement = .separate →
    J (declareEnum s hint? info content site placement) fun _ => True

namespace StepRules

variable {s : ResolutionSettings} {mine : String → Prop}
  {J : ∀ {α : Type}, ResolveM α → (α → Prop) → Prop} (h : StepRules s mine J)
  {α β : Type} {site : Site}
include h

theorem map {x : ResolveM α} {g : α → β} {Q : α → Prop} {R : β → Prop} (hx : J x Q)
    (hg : ∀ a, Q a → R (g a)) : J (g <$> x) R := by
  rw [map_eq_pure_bind]
  exact h.bind hx fun a ha => h.pure (hg a ha)

theorem mono {x : ResolveM α} {Q R : α → Prop} (hx : J x Q) (hQ : ∀ a, Q a → R a) : J x R := by
  rw [← bind_pure x]
  exact h.bind hx fun a ha => h.pure (hQ a ha)

theorem liftExcept (r : Except GenerationError α) :
    J (liftExcept r : ResolveM α) fun _ => True := by
  cases r with
  | ok a => exact h.pure trivial
  | error e => exact h.throw e

/-! ## Declarations -/

theorem declareClass {name : String} {node : SchemaNode} {kind : ClassKind}
    {members : TypeName → ResolveM (ClassDecl → ClassDecl)} (hsite : SiteWithin mine site)
    (hmembers : ∀ type, type.package = site.package → J (members type) fun _ => True) :
    J (declareClass s name node kind site members) fun type => type.package = site.package := by
  unfold Resolution.declareClass
  refine h.bind (h.claimClass hsite.package) fun slot hslot => ?_
  cases slot with
  | existing type => exact h.pure hslot
  | fresh type =>
    have hmine : mine type.package := by
      rw [show type.package = site.package from hslot]
      exact hsite.package
    refine h.bind (h.addClass hmine) fun _ _ => ?_
    refine h.bind (hmembers type hslot) fun f _ => ?_
    exact h.bind (h.modifyClass hmine) fun _ _ => h.pure hslot

theorem declareAlias {name : String} {target : TypeRef} {sealedClass : TypeName}
    (hsite : SiteWithin mine site) :
    J (declareAlias s name target sealedClass site) fun _ => True := by
  unfold Resolution.declareAlias
  refine h.bind (h.claimClass hsite.package) fun slot hslot => ?_
  cases slot with
  | existing type => exact h.pure trivial
  | fresh type =>
    have hmine : mine type.package := by
      rw [show type.package = site.package from hslot]
      exact hsite.package
    exact h.bind (h.addAlias hmine) fun _ _ => h.pure trivial

/-- An alternative may only join as a class of these packages. -/
theorem joinVariant {sealedClass : TypeName} {name : String} {type : TypeRef}
    (hsite : SiteWithin mine site)
    (htype : type.ClassWithin mine) :
    J (joinVariant s sealedClass name type site) fun _ => True := by
  unfold Resolution.joinVariant
  split
  · rename_i variant
    have hmine : mine variant.key.package := htype variant rfl
    exact h.bind (h.modifyClass hmine) fun _ _ => h.pure trivial
  · exact h.bind (h.declareAlias hsite) fun _ _ => h.pure trivial

theorem aliasVariants {sealedClass : TypeName} (hsite : SiteWithin mine site) (index : Nat)
    (members : List (String × ScalarKind)) :
    J (aliasVariants s sealedClass site index members) fun _ => True := by
  induction members generalizing index with
  | nil => exact h.pure trivial
  | cons member rest ih =>
    rw [Resolution.aliasVariants]
    exact h.bind (h.declareAlias (hsite.child _)) fun _ _ =>
      h.bind (ih (index + 1)) fun _ _ => h.pure trivial

/-! ## Schemas -/

theorem fieldsAt {required : List String} {properties : List (String × SchemaNode)}
    (hproperties : ∀ property ∈ properties, ∀ hint? site, SiteWithin mine site →
      J (typeAt s hint? property.2 site) (·.ClassWithin mine)) (hsite : SiteWithin mine site) :
    J (fieldsAt s required properties site) fun _ => True := by
  induction properties with
  | nil => exact h.pure trivial
  | cons property rest ih =>
    rw [Resolution.fieldsAt]
    refine h.bind (hproperties property List.mem_cons_self _ _ (hsite.child _)) fun _ _ => ?_
    refine h.bind (ih fun property hmem => ?_) fun _ _ => h.pure trivial
    exact hproperties property (List.mem_cons_of_mem _ hmem)

theorem variantsFrom {alternatives : List SchemaNode} {sealedClass : TypeName}
    (htype : ∀ node ∈ alternatives, ∀ hint? site, SiteWithin mine site →
      J (typeAt s hint? node site) (·.ClassWithin mine))
    (hclass : ∀ node ∈ alternatives, ∀ name site, SiteWithin mine site →
      J (classAt s name node site) fun type => mine type.package)
    (hsite : SiteWithin mine site) (index : Nat) :
    J (variantsFrom s sealedClass alternatives index site) fun _ => True := by
  induction alternatives generalizing index with
  | nil => exact h.pure trivial
  | cons node rest ih =>
    rw [Resolution.variantsFrom]
    have hinner := hsite.child (toString index)
    have hrest (type : TypeRef) (htype' : type.ClassWithin mine) : J (do
        let variant ← Resolution.joinVariant s sealedClass (variantName sealedClass index node) type
          (site.child (toString index))
        let variants ← Resolution.variantsFrom s sealedClass rest (index + 1) site
        return variant :: variants) fun _ => True := by
      refine h.bind (h.joinVariant hinner htype') fun _ _ => ?_
      refine h.bind (ih (fun node hmem => ?_) (fun node hmem => ?_) (index + 1)) fun _ _ =>
        h.pure trivial
      · exact htype node (List.mem_cons_of_mem _ hmem)
      · exact hclass node (List.mem_cons_of_mem _ hmem)
    split
    · refine h.bind (h.map (hclass node List.mem_cons_self _ _ hinner) ?_) hrest
      rintro type htype' variant ⟨⟩
      exact htype'
    · exact h.bind (htype node List.mem_cons_self _ _ hinner) hrest

theorem classOf {name : String} {info : SchemaInfo} {shape : ObjectSchema}
    (hproperties : ∀ property ∈ shape.properties, ∀ hint? site, SiteWithin mine site →
      J (typeAt s hint? property.2 site) (·.ClassWithin mine))
    (halternatives : ∀ alternatives, shape.oneOf? = some alternatives → ∀ node ∈ alternatives,
      (∀ hint? site, SiteWithin mine site → J (typeAt s hint? node site) (·.ClassWithin mine)) ∧
        ∀ name site, SiteWithin mine site →
          J (classAt s name node site) fun type => mine type.package)
    (hvalues : ∀ values, shape.mapValues? = some values → ∀ hint? site, SiteWithin mine site →
      J (typeAt s hint? values.schema site) (·.ClassWithin mine)) (hsite : SiteWithin mine site) :
    J (classOf s name info shape (partsOf s shape) site)
      fun type => type.package = site.package := by
  unfold Resolution.classOf
  dsimp only
  split
  · exact h.throw _
  split
  · rename_i alternatives honeOf
    refine h.declareClass hsite fun type htype => ?_
    have hinner := (hsite.inside htype).child "oneOf"
    split
    · refine h.bind (h.aliasVariants hinner 0 _) fun _ _ => ?_
      exact h.pure trivial
    · rw [partsOf, honeOf]
      simp only [alternativesAt]
      refine h.bind (h.variantsFrom (fun node hmem => (halternatives _ honeOf node hmem).1)
        (fun node hmem => (halternatives _ honeOf node hmem).2) hinner 0) fun _ _ => ?_
      exact h.pure trivial
  · rename_i values _ hmapValues
    refine h.declareClass hsite fun type htype => ?_
    have hinner := (hsite.inside htype).child values.keyword.name
    rw [partsOf, hmapValues]
    simp only [mapValueAt]
    refine h.bind (hvalues values hmapValues _ _ hinner) fun _ _ => ?_
    exact h.pure trivial
  · refine h.declareClass hsite fun type htype => ?_
    refine h.bind (h.fieldsAt hproperties (hsite.inside htype)) fun _ _ => ?_
    exact h.pure trivial

theorem byChildren (node : SchemaNode) :
    (∀ hint? site, SiteWithin mine site → J (typeAt s hint? node site) (·.ClassWithin mine)) ∧
      ∀ name site, SiteWithin mine site →
        J (classAt s name node site) fun type => mine type.package := by
  have hother {type : TypeRef} (htype : ∀ variant, type ≠ .classType variant) :
      type.ClassWithin mine := fun variant h => absurd h (htype variant)
  have hrefused {node : SchemaNode} (hnode : node.object? = none) (name : String) (site : Site) :
      J (classAt s name node site) fun type => mine type.package := by
    rw [classAt_eq_of_not_object s name hnode]
    exact h.nested (h.throw _)
  induction node using SchemaNode.byChildren with
  | scalar info kind =>
    refine ⟨fun hint? site hsite => ?_, fun name site _ => hrefused rfl name site⟩
    rw [Resolution.typeAt]
    refine h.nested ?_
    unfold scalarType
    dsimp only
    split
    · split
      · refine h.bind (h.liftExcept _) fun _ _ => ?_
        exact h.bind (h.declareEnum hsite (.inl rfl)) fun _ _ => h.pure (hother (by simp))
      · exact h.pure (hother (by simp))
    · exact h.pure (hother (by simp))
  | null info =>
    refine ⟨fun hint? site _ => ?_, fun name site _ => hrefused rfl name site⟩
    rw [Resolution.typeAt]
    exact h.nested (h.pure (hother (by simp)))
  | array info items ih =>
    refine ⟨fun hint? site hsite => ?_, fun name site _ => hrefused rfl name site⟩
    rw [Resolution.typeAt]
    exact h.nested (h.bind (ih.1 _ _ (hsite.child _)) fun _ _ => h.pure (hother (by simp)))
  | object info shape hproperties halternatives hvalues =>
    have hclass (name : String) (site : Site) (hsite : SiteWithin mine site) :
        J (Resolution.classOf s name info shape (partsOf s shape) site)
          fun type => type.package = site.package :=
      h.classOf (fun property hmem => (hproperties property hmem).1) halternatives
        (fun values hmem => (hvalues values hmem).1) hsite
    refine ⟨fun hint? site hsite => ?_, fun name site hsite => ?_⟩
    · rw [typeAt_eq_of_object]
      refine h.nested ?_
      unfold objectType
      dsimp only
      split
      · refine h.bind (h.liftExcept _) fun _ _ => ?_
        exact h.bind (h.declareEnum hsite (.inl rfl)) fun _ _ => h.pure (hother (by simp))
      split
      · rename_i values _ hmapValues
        rw [partsOf, hmapValues]
        simp only [mapValueAt]
        exact h.bind ((hvalues values hmapValues).1 _ _ (hsite.child _)) fun _ _ =>
          h.pure (hother (by simp))
      · split
        · exact h.throw _
        · refine h.bind (hclass _ site hsite) fun type htype => h.pure ?_
          rintro variant ⟨⟩
          rw [htype]
          exact hsite.package
    · rw [classAt_eq_of_object]
      exact h.nested (h.mono (hclass name site hsite) fun type htype => htype ▸ hsite.package)

theorem resolveSeparateEnum {name package : String} {node : SchemaNode} {context : NamingContext}
    (hsite : SiteWithin mine { package, context, path := name }) :
    J (resolveSeparateEnum s name node package context) fun _ => True := by
  unfold Resolution.resolveSeparateEnum
  dsimp only
  split
  · exact h.throw _
  · rename_i values _
    have hrest (content : EnumContent) : J (Resolution.declareEnum s (some name) node.info content
        { package, context, path := name } .separate) fun _ => True :=
      h.declareEnum hsite (.inr rfl)
    split
    · exact h.bind (h.liftExcept _) fun content _ => hrest content
    · exact h.bind (h.liftExcept _) fun content _ => hrest content
    · exact h.bind (Q := fun _ => True) (h.throw _) fun content _ => hrest content

end StepRules

/-! ## Calls -/

namespace Call

/-- A package in which a call may look for names and declare types: its own, the one that the
properties of a feature get, and the one of the class that it stands in. -/
def Touches (call : Call) (package : String) : Prop :=
  package = call.package ∨
    (call.context.role = .feature ∧ package = call.package ++ ".properties") ∨
    ∃ parent, call.context.parent? = some parent ∧ package = parent.package

theorem siteWithin {call : Call} {mine : String → Prop} (h : ∀ p, call.Touches p → mine p)
    (path : String) :
    SiteWithin mine { package := call.package, context := call.context, path } where
  package := h _ (.inl rfl)
  inner := by
    unfold Site.innerPackage
    dsimp only
    split
    · rename_i hrole
      exact h _ (.inr (.inl ⟨hrole, rfl⟩))
    · exact h _ (.inl rfl)
  parent owner howner := h _ (.inr (.inr ⟨owner, howner, rfl⟩))

/-- Whatever comes with the steps and is kept when they are put together holds of a call. -/
theorem of_stepRules {call : Call} {mine : String → Prop}
    {J : ∀ {α : Type}, ResolveM α → (α → Prop) → Prop} (h : StepRules call.settings mine J)
    (hmine : ∀ p, call.Touches p → mine p) : J call.act fun _ => True := by
  unfold act
  split
  · exact h.mono ((h.byChildren call.node).1 _ _ (siteWithin hmine _)) fun _ _ => trivial
  · exact h.mono ((h.byChildren call.node).1 _ _ (siteWithin hmine _)) fun _ _ => trivial
  · exact h.map ((h.byChildren call.node).2 _ _ (siteWithin hmine _)) fun _ _ => trivial
  · exact h.map (h.resolveSeparateEnum (siteWithin hmine _)) fun _ _ => trivial

end Call

end Resolution

end ThingTypes
