import ThingTypes.Proofs.Resolution.Closure

/-
  Which types a declaration mentions. The members of a class are resolved in one package, its home:
  for the class of a feature a package below its own, and for all others their own. So a class
  mentions types of its home, and enums that are nested in it.
-/

namespace ThingTypes

/-! ## Mentions -/

/-- The type is of the package, or nested in the class around. -/
structure TypeName.Near (package : String) (around? : Option TypeName) (type : TypeName) :
    Prop where
  plain : type.IsPlain
  place : type.package = package ∨
    ∃ around ∈ around?, type.package = around.package ∧ type.owner? = some around.name

def TypeRef.Near (package : String) (around? : Option TypeName) (ref : TypeRef) : Prop :=
  ∀ type ∈ ref.referencedName?, type.Near package around?

/-- The members and the parents of a class are near. -/
structure ClassDecl.Near (package : String) (around : TypeName) (d : ClassDecl) : Prop where
  fields : ∀ field ∈ d.fields, field.type.Near package (some around)
  mapValue : ∀ value ∈ d.mapValue?, value.Near package (some around)
  parents : ∀ parent ∈ d.sealedParents, parent.Near package (some around)

structure AliasDecl.Near (package : String) (a : AliasDecl) : Prop where
  target : a.target.Near package none
  parent : ∀ parent ∈ a.sealedParent?, parent.Near package none

theorem TypeName.Near.package_eq {package : String} {type : TypeName} (h : type.Near package none) :
    type.package = package :=
  h.place.resolve_right fun ⟨_, hmem, _⟩ => absurd hmem (Option.not_mem_none _)

/-- Around what is nested in a class of the package, there is nothing of another one. -/
theorem TypeRef.Near.of_package {package : String} {around? : Option TypeName} {ref : TypeRef}
    (h : ref.Near package around?) (haround : ∀ around ∈ around?, around.package = package) :
    ref.Near package none := by
  intro type hmem
  obtain ⟨hplain, hplace⟩ := h type hmem
  refine ⟨hplain, .inl ?_⟩
  rcases hplace with hpackage | ⟨around, haround', hpackage, -⟩
  · exact hpackage
  · rw [hpackage, haround around haround']

namespace Catalog

/-- Every class mentions types of the home of its package, and enums of its own. A class that is
not at home is one of the roots. -/
structure Homed (home : String → String) (roots : List TypeKey) (c : Catalog) : Prop where
  classes : ∀ {k d}, c.classes.class? k = some d → d.Near (home k.package) k.typeName
  aliases : ∀ {k a}, c.classes.alias? k = some a → a.Near k.package
  settled : ∀ {k}, c.classes.class? k ≠ none → home k.package = k.package ∨ k ∈ roots

variable {home : String → String} {roots : List TypeKey} {c : Catalog}

theorem homed_empty (home : String → String) (roots : List TypeKey) : Homed home roots {} :=
  ⟨nofun, nofun, fun h => absurd rfl h⟩

namespace Homed

theorem mono (hc : c.Homed home roots) {roots' : List TypeKey} (h : roots ⊆ roots') :
    c.Homed home roots' :=
  { hc with settled := fun hk => (hc.settled hk).imp_right fun hmem => h hmem }

/-- A root that is at home is none. -/
theorem drop {key : TypeKey} (hc : c.Homed home (key :: roots))
    (hkey : home key.package = key.package) : c.Homed home roots where
  classes := hc.classes
  aliases := hc.aliases
  settled hk := by
    rcases hc.settled hk with hhome | hmem
    · exact .inl hhome
    · rcases List.mem_cons.mp hmem with rfl | hmem
      · exact .inl hkey
      · exact .inr hmem

theorem addClass (hc : c.Homed home roots) (d : ClassDecl)
    (hd : d.Near (home d.package) d.typeName) : (c.addClass d).Homed home (d.key :: roots) where
  classes {k d'} h := by
    rw [class?_addClass] at h
    split at h
    · rename_i hk
      cases h
      rw [hk]
      exact hd
    · exact hc.classes h
  aliases := hc.aliases
  settled {k} h := by
    rw [class?_addClass] at h
    split at h
    · rename_i hk
      exact .inr (hk ▸ List.mem_cons_self)
    · exact (hc.settled h).imp_right (List.mem_cons_of_mem _)

theorem addAlias (hc : c.Homed home roots) {a : AliasDecl} (ha : a.Near a.package) :
    (c.addAlias a).Homed home roots where
  classes := hc.classes
  aliases {k a'} h := by
    rw [alias?_addAlias] at h
    split at h
    · rename_i hk
      cases h
      rw [hk]
      exact ha
    · exact hc.aliases h
  settled := hc.settled

theorem modifyClass (hc : c.Homed home roots) {key : TypeKey} {f : ClassDecl → ClassDecl}
    (hf : ∀ d, d.Near (home key.package) key.typeName →
      (f d).Near (home key.package) key.typeName) :
    (c.modifyClass key f).Homed home roots where
  classes {k d} h := by
    rw [class?_modifyClass, Option.map_eq_some_iff] at h
    obtain ⟨d', hd', rfl⟩ := h
    split
    · rename_i hk
      rw [hk] at hd' ⊢
      exact hf d' (hc.classes hd')
    · exact hc.classes hd'
  aliases := hc.aliases
  settled {k} h := by
    rw [class?_modifyClass, Ne, Option.map_eq_none_iff] at h
    exact hc.settled h

theorem nest (hc : c.Homed home roots) (key : TypeKey) (e : EnumDecl) :
    (c.nest key e).Homed home roots := by
  have h : (c.modifyClass key (·.nestEnum e)).Homed home roots :=
    hc.modifyClass fun _ hd => ⟨hd.fields, hd.mapValue, hd.parents⟩
  exact ⟨h.classes, h.aliases, h.settled⟩

end Homed

end Catalog

namespace Resolution

open Catalog

variable {s : ResolutionSettings} {site : Site} {c : Catalog} {outer name : String}
  {parent : TypeName} {home : String → String} {roots : List TypeKey}

/-- The site is in a package whose classes are at home, and so is what stands inside. -/
structure AtHome (home : String → String) (outer : String) (site : Site) : Prop where
  beneath : Beneath outer site
  home : home site.package = site.package
  inner : site.innerPackage = site.package

theorem AtHome.child (h : AtHome home outer site) (segment : String) :
    AtHome home outer (site.child segment) :=
  ⟨h.beneath.child segment, h.home, h.inner⟩

theorem atHome_inside (h : Beneath outer site) {type : TypeName} (htype : type.IsPlain)
    (hhome : home site.innerPackage = site.innerPackage) : AtHome home outer (site.inside type) :=
  ⟨h.inside htype, hhome, site.innerPackage_inside type⟩

/-! ## Enums and aliases -/

theorem declareEnum_homed (hbeneath : Beneath outer site) (hc : c.Homed home roots)
    {hint? : Option String} {info : SchemaInfo} {content : EnumContent}
    {placement : EnumPlacement} :
    Outcome (declareEnum s hint? info content site placement) c
      (fun type c' => type.Near site.package site.context.parent? ∧ c'.Homed home roots)
      fun _ => True := by
  have hfound {name found : String} (hname : hintedName? hint? info.title? = some name)
      (hfound : separateEnumName s c name content.fingerprint site = .ok found) :
      TypeName.Near site.package site.context.parent? { package := site.package, name := found } :=
    ⟨⟨hbeneath.package, hbeneath.isName_separateEnumName (isName_of_hintedName? hname) hfound,
      nofun⟩, .inl rfl⟩
  refine declareEnum_outcome trivial ?_ ?_ ?_
  · intro name owner hname _ hparent
    have howner := hbeneath.parent owner hparent
    refine ⟨⟨⟨howner.package, isName_of_hintedName? hname, ?_⟩, .inr ⟨owner, hparent, rfl, rfl⟩⟩,
      hc.nest _ _⟩
    rintro _ ⟨⟩
    exact howner.name.plain
  · exact fun name found hname _ hname' _ =>
      ⟨hfound hname hname', hc.classes, hc.aliases, hc.settled⟩
  · exact fun name found hname _ hname' _ => ⟨hfound hname hname', hc⟩

theorem declareAlias_homed (site : Site) (name : String) (hparent : parent.Near site.package none)
    {target : TypeRef} (htarget : target.Near site.package none) (hc : c.Homed home roots) :
    Outcome (declareAlias s name target parent site) c (fun _ c' => c'.Homed home roots)
      fun _ => True := by
  refine declareAlias_outcome trivial (fun _ _ _ => hc) fun type hoffers _ => hc.addAlias ?_
  have hpackage : type.package = site.package := hoffers.topLevel.1
  refine ⟨hpackage ▸ htarget, ?_⟩
  rintro _ ⟨⟩
  exact hpackage ▸ hparent

/-- A class that joins is of the package of its site, where classes are at home. -/
theorem joinVariant_homed (hsite : AtHome home outer site)
    (hparent : parent.Near site.package none) {type : TypeRef}
    (htype : type.Near site.package none) (hc : c.Homed home roots) :
    Outcome (joinVariant s parent name type site) c (fun _ c' => c'.Homed home roots)
      fun _ => True := by
  refine joinVariant_outcome ?_ fun _ => declareAlias_homed site name hparent htype hc
  rintro variant rfl
  refine hc.modifyClass fun d hd => ?_
  obtain ⟨parents, h, -⟩ := d.addSealedParent_eq parent
  have hmem := d.mem_sealedParents_addSealedParent parent
  rw [h] at hmem ⊢
  refine ⟨hd.fields, hd.mapValue, fun other hother => ?_⟩
  rcases (hmem other).mp hother with hother | rfl
  · exact hd.parents other hother
  · have hvariant : variant.package = site.package := (htype variant rfl).package_eq
    refine ⟨hparent.plain, .inl ?_⟩
    change _ = home variant.package
    rw [hparent.package_eq, hvariant, hsite.home]

theorem aliasVariants_homed (members : List (String × ScalarKind))
    (hparent : parent.Near site.package none) :
    ∀ {index c}, c.Homed home roots →
      Outcome (aliasVariants s parent site index members) c (fun _ c' => c'.Homed home roots)
        fun _ => True := by
  induction members with
  | nil => exact fun hc => .pure hc
  | cons member rest ih =>
    intro index c hc
    have htarget : (TypeRef.primitive member.2).Near site.package none := nofun
    refine aliasVariants_cons_outcome ((declareAlias_homed (site.child (toString index)) member.1
      hparent htarget hc).imp ?_)
    exact fun _ _ hc' => ih hc'

/-! ## Schemas -/

/-- Resolving the schema where classes are at home leads to a type that is near, and leaves all
mentions so. -/
structure FindsHome (s : ResolutionSettings) (home : String → String) (outer : String)
    (node : SchemaNode) : Prop where
  ofType : ∀ hint? site {roots c}, AtHome home outer site → c.Homed home roots →
    Outcome (typeAt s hint? node site) c
      (fun type c' => type.Near site.package site.context.parent? ∧ c'.Homed home roots)
      fun _ => True
  ofClass : ∀ name site {roots c}, AtHome home outer site → c.Homed home roots →
    Outcome (classAt s name node site) c
      (fun type c' => type.IsPlain ∧ type.IsTopLevel site.package ∧ c'.Homed home roots)
      fun _ => True

theorem fieldsAt_homed {properties : List (String × SchemaNode)} {required : List String}
    (h : ∀ property ∈ properties, FindsHome s home outer property.2)
    (hsite : AtHome home outer site) :
    ∀ {c}, c.Homed home roots →
      Outcome (fieldsAt s required properties site) c
        (fun fields c' =>
          (∀ field ∈ fields, field.type.Near site.package site.context.parent?) ∧
            c'.Homed home roots) fun _ => True := by
  induction properties with
  | nil => exact fun hc => .pure ⟨nofun, hc⟩
  | cons property rest ih =>
    intro c hc
    refine fieldsAt_cons_outcome (((h property List.mem_cons_self).ofType (some property.1)
      (site.child property.1) (hsite.child _) hc).imp ?_)
    rintro type c' ⟨htype, hc'⟩
    refine (ih (fun property hmem => h property (List.mem_cons_of_mem _ hmem)) hc').imp ?_
    rintro fields c'' ⟨hfields, hc''⟩
    exact ⟨List.forall_mem_cons.mpr ⟨htype, hfields⟩, hc''⟩

theorem variantsFrom_homed {alternatives : List SchemaNode}
    (h : ∀ node ∈ alternatives, FindsHome s home outer node) (hsite : AtHome home outer site)
    (haround : site.context.parent? = some parent) (hparent : parent.Near site.package none) :
    ∀ index {c}, c.Homed home roots →
      Outcome (variantsFrom s parent alternatives index site) c (fun _ c' => c'.Homed home roots)
        fun _ => True := by
  induction alternatives with
  | nil =>
    intro index c hc
    rw [variantsFrom]
    exact .pure hc
  | cons node rest ih =>
    intro index c hc
    have hnode := h node List.mem_cons_self
    refine variantsFrom_cons_outcome
      (R := fun type c' => type.Near site.package none ∧ c'.Homed home roots) ?_ ?_ ?_
    · intro _
      refine (hnode.ofClass _ _ (hsite.child _) hc).imp ?_
      rintro type c' ⟨hplain, htop, hc'⟩
      refine ⟨?_, hc'⟩
      rintro _ ⟨⟩
      exact ⟨hplain, .inl htop.1⟩
    · intro _
      refine (hnode.ofType _ _ (hsite.child _) hc).imp ?_
      rintro type c' ⟨htype, hc'⟩
      refine ⟨htype.of_package fun around hmem => ?_, hc'⟩
      obtain rfl : around = parent := Option.some.inj (hmem.symm.trans haround)
      exact hparent.package_eq
    · rintro type c₁ ⟨htype, hc₁⟩
      refine (joinVariant_homed (hsite.child _) hparent htype hc₁).imp fun variant c₂ hc₂ => ?_
      exact ih (fun node hmem => h node (List.mem_cons_of_mem _ hmem)) (index + 1) hc₂

/-- The class of an object schema is a root unless its package is its home. Alternatives get it for
a parent, so a sealed class has to be at home. -/
theorem classOf_homed {info : SchemaInfo} {shape : ObjectSchema}
    (hproperties : ∀ property ∈ shape.properties, FindsHome s home outer property.2)
    (halternatives : ∀ alternatives, shape.oneOf? = some alternatives →
      ∀ node ∈ alternatives, FindsHome s home outer node)
    (hvalues : ∀ values, shape.mapValues? = some values → FindsHome s home outer values.schema)
    (hbeneath : Beneath outer site) (hhome : home site.package = site.innerPackage)
    (hinner : home site.innerPackage = site.innerPackage)
    (hsealed : shape.oneOf? ≠ none → site.innerPackage = site.package)
    (hc : c.Homed home roots) :
    Outcome (classOf s name info shape (partsOf s shape) site) c
      (fun type c' => type.IsPlain ∧ type.IsTopLevel site.package ∧
        c'.Homed home (type.key :: roots)) fun _ => True := by
  have hframe (kind : ClassKind) (type : TypeName) (hoffers : Offers s site name type) :
      type.IsPlain ∧ AtHome home outer (site.inside type) ∧
        (c.addClass (classFrame s info shape site kind type)).Homed home (type.key :: roots) := by
    have hplain := hbeneath.isPlain_of_offers hoffers
    exact ⟨hplain, atHome_inside hbeneath hplain hinner,
      hc.addClass (classFrame s info shape site kind type) ⟨nofun, nofun, nofun⟩⟩
  -- What is near inside the class is near to it.
  have hmembers {type : TypeName} (hoffers : Offers s site name type) {ref : TypeRef}
      (href : ref.Near site.innerPackage (some type)) :
      ref.Near (home type.key.package) (some type.key.typeName) := by
    have hkey : type.key.typeName = type := hoffers.topLevel.typeName_eq
    have hpackage : home type.key.package = site.innerPackage := by
      change home type.package = _
      rw [hoffers.topLevel.1, hhome]
    rwa [hkey, hpackage]
  refine classOf_outcome trivial ?_ ?_ ?_ ?_
  · exact fun type _ hoffers _ => ⟨hbeneath.isPlain_of_offers hoffers, hoffers.topLevel,
      hc.mono (List.subset_cons_self _ _)⟩
  · intro type alternatives _ honeOf hoffers hfree
    obtain ⟨hplain, hsite, hc₁⟩ := hframe .sealed type hoffers
    have hpackage : site.innerPackage = site.package := hsealed (by simp [honeOf])
    have hparent : type.Near site.innerPackage none :=
      ⟨hplain, .inl (hoffers.topLevel.1.trans hpackage.symm)⟩
    have hvariants : Outcome
        (sealedVariants s alternatives type ((site.inside type).child "oneOf"))
        (c.addClass (classFrame s info shape site .sealed type))
        (fun _ c' => c'.Homed home (type.key :: roots)) fun _ => True := by
      unfold sealedVariants
      split
      · exact aliasVariants_homed _ hparent hc₁
      · exact variantsFrom_homed (halternatives alternatives honeOf) (hsite.child _) rfl hparent 0
          hc₁
    refine hvariants.imp fun variants c' hc' => ⟨hplain, hoffers.topLevel, hc'.modifyClass ?_⟩
    exact fun d hd => ⟨hd.fields, hd.mapValue, hd.parents⟩
  · intro type values _ _ hmapValues hoffers hfree
    obtain ⟨hplain, hsite, hc₁⟩ := hframe .mapWrapper type hoffers
    refine ((hvalues values hmapValues).ofType _ _ (hsite.child _) hc₁).imp ?_
    rintro value c' ⟨hvalue, hc'⟩
    refine ⟨hplain, hoffers.topLevel, hc'.modifyClass fun d hd => ⟨hd.fields, ?_, hd.parents⟩⟩
    rintro _ ⟨⟩
    exact hmembers hoffers hvalue
  · intro type _ _ _ hoffers hfree
    obtain ⟨hplain, hsite, hc₁⟩ := hframe .plain type hoffers
    refine (fieldsAt_homed hproperties hsite hc₁).imp ?_
    rintro fields c' ⟨hfields, hc'⟩
    exact ⟨hplain, hoffers.topLevel, hc'.modifyClass fun d hd =>
      ⟨fun field hmem => hmembers hoffers (hfields field hmem), hd.mapValue, hd.parents⟩⟩

theorem findsHome (s : ResolutionSettings) (home : String → String) (outer : String)
    (node : SchemaNode) : FindsHome s home outer node := by
  induction node using SchemaNode.byChildren with
  | scalar info kind =>
    refine ⟨fun hint? site roots c hsite hc => ?_,
      fun _ _ _ _ _ _ => classAt_outcome_of_not_object rfl trivial⟩
    refine typeAt_scalar_outcome trivial (fun _ => ⟨nofun, hc⟩) fun _ _ _ _ => ?_
    refine (declareEnum_homed hsite.beneath hc).imp fun type c' h => ⟨?_, h.2⟩
    rintro _ ⟨⟩
    exact h.1
  | null info =>
    exact ⟨fun _ _ _ _ _ hc => typeAt_null_outcome trivial ⟨nofun, hc⟩,
      fun _ _ _ _ _ _ => classAt_outcome_of_not_object rfl trivial⟩
  | array info items ih =>
    exact ⟨fun hint? site roots c hsite hc => typeAt_array_outcome trivial
        ((ih.ofType _ _ (hsite.child _) hc).imp fun _ _ h => h),
      fun _ _ _ _ _ _ => classAt_outcome_of_not_object rfl trivial⟩
  | object info shape hproperties halternatives hvalues =>
    have hclass (name : String) (site : Site) {roots : List TypeKey} {c : Catalog}
        (hsite : AtHome home outer site) (hc : c.Homed home roots) :
        Outcome (classOf s name info shape (partsOf s shape) site) c
          (fun type c' => type.IsPlain ∧ type.IsTopLevel site.package ∧ c'.Homed home roots)
          fun _ => True := by
      refine (classOf_homed hproperties halternatives hvalues hsite.beneath
        (hsite.home.trans hsite.inner.symm) (hsite.inner.symm ▸ hsite.home) (fun _ => hsite.inner)
        hc).imp ?_
      rintro type c' ⟨hplain, htop, hc'⟩
      refine ⟨hplain, htop, hc'.drop ?_⟩
      change home type.package = type.package
      rw [htop.1, hsite.home]
    constructor
    · intro hint? site roots c hsite hc
      refine typeAt_object_outcome trivial ?_ ?_ ?_
      · intro _ _ _ _
        refine (declareEnum_homed hsite.beneath hc).imp fun type c' h => ⟨?_, h.2⟩
        rintro _ ⟨⟩
        exact h.1
      · exact fun values _ _ hmap =>
          ((hvalues values hmap).ofType _ _ (hsite.child _) hc).imp fun _ _ h => h
      · intro name _ _ _
        refine (hclass name site hsite hc).imp ?_
        rintro type c' ⟨hplain, htop, hc'⟩
        refine ⟨?_, hc'⟩
        rintro _ ⟨⟩
        exact ⟨hplain, .inl htop.1⟩
    · exact fun _ _ _ _ hsite hc => classAt_object_outcome trivial (hclass _ _ hsite hc)

end Resolution

end ThingTypes
