import ThingTypes.Proofs.Resolution.DigestedTexts
import ThingTypes.Proofs.Resolution.Soundness

/-
  Schemas resolve to types that are right for them, where scalars with declared values become
  top-level enums. It makes no difference whether a type is declared for the schema or was there
  before, and the type stays right whatever is resolved later.
-/

namespace ThingTypes

/-- Enums stand at the top level, and every scalar schema with declared values becomes one. -/
structure ResolutionSettings.SeparatesEnums (s : ResolutionSettings) : Prop where
  placement_eq : s.placement = .separate
  wraps_eq : s.wraps = .declaredValues

namespace Resolution

open Catalog

variable {s : ResolutionSettings} {c : Catalog} {site : Site} {underway : List TypeName} {bound : ℕ}
  {parent : TypeName} {name : String}

/-- The type found is right, and the catalog is as sound as it was. -/
structure Resolved (digest : Digest) (underway : List TypeName) (package : String)
    (node : SchemaNode) (type : TypeRef) (c : Catalog) : Prop where
  sound : Sound digest underway c
  within : type.Within package
  isRight : (c.declarations underway).Matches node type

/-! ## Enums and aliases -/

section Declarations

variable (hdigest : Function.Injective s.digest) (hc : Ready s.digest bound underway c)
include hdigest hc

theorem declareEnum_sound {hint? : Option String} {info : SchemaInfo} {content : EnumContent}
    {values : List Json} (hcontent : content.IsOf s.digest values) :
    Outcome (declareEnum s hint? info content site .separate) c
      (fun type c' => Sound s.digest underway c' ∧ type.IsTopLevel site.package ∧
        (c'.declarations underway).HasEnum content.backing values (.enumType type))
      fun _ => True := by
  refine declareEnum_outcome trivial (fun _ _ _ h => by cases h) ?_ ?_
  · intro _ found _ _ _ henum
    refine ⟨hc.addEnum (.addEnum (hc.separate?_of_free henum)) hcontent, ⟨rfl, rfl⟩, _, _, rfl,
      enum?_declarations.mpr ⟨separate?_addEnum_self _ _, rfl⟩, rfl, ?_⟩
    exact hcontent.sorted_constants_eq
  · exact fun _ found _ _ _ hheld =>
      ⟨hc.toSound, ⟨rfl, rfl⟩, hc.hasEnum_of_held hdigest hcontent hheld⟩

/-- A schema with declared values gets an enum of these values. -/
theorem declareEnum_resolved {hint? : Option String} {info : SchemaInfo} {content : EnumContent}
    {node : SchemaNode} {values : List Json} {path : String}
    (hvalues : node.enumValues? = some values)
    (hcontent : (∃ kind, node.kind = .scalar kind ∧
        EnumContent.ofScalars s.digest kind values path = .ok content) ∨
      (∃ shape, node.kind = .object shape ∧
        EnumContent.ofRecords s.digest shape.properties values path = .ok content)) :
    Outcome (declareEnum s hint? info content site .separate) c
      (fun type c' => Resolved s.digest underway site.package node (.enumType type) c')
      fun _ => True := by
  obtain ⟨info', nodeKind⟩ := node
  rcases hcontent with ⟨kind, rfl, hcontent⟩ | ⟨shape, rfl, hcontent⟩
  · obtain ⟨hcontent, hbacking⟩ := EnumContent.isOf_of_scalars hcontent
    refine (declareEnum_sound hdigest hc hcontent).imp ?_
    rintro type c' ⟨hs, htop, henum⟩
    rw [hbacking, ← Declarations.matches_scalar_of_enum hvalues] at henum
    exact ⟨hs, TypeRef.within_enumType.mpr htop, henum⟩
  · obtain ⟨hcontent, hbacking⟩ := EnumContent.isOf_of_records hcontent
    refine (declareEnum_sound hdigest hc hcontent).imp ?_
    rintro type c' ⟨hs, htop, henum⟩
    rw [hbacking, ← Declarations.matches_object_of_enum hvalues] at henum
    exact ⟨hs, TypeRef.within_enumType.mpr htop, henum⟩

theorem declareAlias_sound {target : TypeRef} (htarget : target.Within site.package) :
    Outcome (declareAlias s name target parent site) c
      (fun type c' => Sound s.digest underway c' ∧
        (c'.declarations underway).HasAlias (.aliasType type) (· = target)) fun _ => True := by
  refine declareAlias_outcome trivial ?_ ?_
  · exact fun type ⟨htop, _, _⟩ hheld =>
      ⟨hc.toSound, hc.hasAlias_of_held hdigest htop htarget hheld⟩
  · intro type ⟨htop, _, _⟩ hfree
    refine ⟨hc.addAlias (.addAlias (hc.alias?_of_free hfree.1)) ?_, type, _, rfl,
      alias?_declarations.mpr ⟨alias?_addAlias_self _ _, htop.typeName_eq⟩, rfl⟩
    rw [htop.1]
    exact htarget

theorem joinVariant_sound {node : SchemaNode} {type : TypeRef}
    (hwithin : type.Within site.package) (hright : (c.declarations underway).Matches node type) :
    Outcome (joinVariant s parent name type site) c
      (fun variant c' => Sound s.digest underway c' ∧
        (c'.declarations underway).VariantMatches node variant) fun _ => True := by
  refine joinVariant_outcome ?_ fun _ => ?_
  · rintro variant rfl
    have hkeeps : c.Keeps (c.modifyClass variant.key (·.addSealedParent parent)) :=
      .modifyClass fun d _ => d.growsTo_addSealedParent parent
    exact ⟨hc.addSealedParent _ _, .inl ⟨variant, rfl, hright.transfer hkeeps.extends (.refl node)⟩⟩
  · refine ((declareAlias_growing name type parent).outcome
      (declareAlias_sound hdigest hc hwithin)).imp ?_
    rintro other c' ⟨hgrows, hs, halias⟩
    refine ⟨hs, .inr (halias.mono (.refl _) ?_)⟩
    rintro target rfl
    exact hright.transfer (hgrows.keeps hc.toConsistent).extends (.refl node)

end Declarations

theorem aliasVariants_sound (hdigest : Function.Injective s.digest)
    (members : List (String × ScalarKind)) :
    ∀ index c, Ready s.digest bound underway c →
      Outcome (aliasVariants s parent site index members) c
        (fun variants c' => Sound s.digest underway c' ∧
          List.Forall₂ (fun member variant => (c'.declarations underway).HasAlias variant
            fun target => target = .primitive member.2) members variants) fun _ => True := by
  induction members with
  | nil => exact fun _ _ hc => .pure ⟨hc.toSound, .nil⟩
  | cons member rest ih =>
    intro index c hc
    have hprimitive : (TypeRef.primitive member.2).Within (site.child (toString index)).package :=
      nofun
    refine aliasVariants_cons_outcome (((declareAlias_growing _ _ parent).outcome
      (declareAlias_sound hdigest hc hprimitive)).imp ?_)
    rintro type c' ⟨hgrows, hs, halias⟩
    have hc' := hc.after hgrows hs
    refine ((aliasVariants_growing parent rest (index + 1)).outcome (ih _ c' hc')).imp ?_
    rintro variants c'' ⟨hgrows', hs', hvariants⟩
    exact ⟨hs', .cons (halias.mono (hgrows'.keeps hc'.toConsistent).extends fun _ h => h) hvariants⟩

/-! ## Schemas -/

/-- The schema resolves to a type that is right for it, below any schemas that weigh more. -/
structure Resolves (s : ResolutionSettings) (node : SchemaNode) : Prop where
  ofType : ∀ hint? site bound underway c, node.weight < bound → Ready s.digest bound underway c →
    Outcome (typeAt s hint? node site) c (Resolved s.digest underway site.package node)
      fun _ => True
  ofClass : ∀ name site bound underway c, node.weight < bound → Ready s.digest bound underway c →
    Outcome (classAt s name node site) c
      (fun type c' => Resolved s.digest underway site.package node (.classType type) c')
      fun _ => True

theorem fieldsAt_sound {required : List String} {properties : List (String × SchemaNode)}
    (h : ∀ property ∈ properties, Resolves s property.2 ∧ property.2.weight < bound) :
    ∀ c, Ready s.digest bound underway c →
      Outcome (fieldsAt s required properties site) c
        (fun fields c' => Sound s.digest underway c' ∧
          List.Forall₂ ((c'.declarations underway).FieldMatches required) properties fields)
        fun _ => True := by
  induction properties with
  | nil => exact fun _ hc => .pure ⟨hc.toSound, .nil⟩
  | cons property rest ih =>
    intro c hc
    obtain ⟨hproperty, hweight⟩ := h property List.mem_cons_self
    refine fieldsAt_cons_outcome (((typeAt_growing _ _ _).outcome
      (hproperty.ofType _ (site.child property.1) bound underway c hweight hc)).imp ?_)
    rintro type c' ⟨hgrows, hs, _, hright⟩
    have hc' := hc.after hgrows hs
    refine ((fieldsAt_growing required rest).outcome
      (ih (fun property hmem => h property (List.mem_cons_of_mem _ hmem)) c' hc')).imp ?_
    rintro fields c'' ⟨hgrows', hs', hfields⟩
    refine ⟨hs', .cons ⟨⟨rfl, rfl, rfl, rfl⟩, ?_⟩ hfields⟩
    exact hright.transfer (hgrows'.keeps hc'.toConsistent).extends (.refl _)

theorem variantsFrom_sound (hdigest : Function.Injective s.digest) {alternatives : List SchemaNode}
    (h : ∀ node ∈ alternatives, Resolves s node ∧ node.weight < bound) :
    ∀ index c, Ready s.digest bound underway c →
      Outcome (variantsFrom s parent alternatives index site) c
        (fun variants c' => Sound s.digest underway c' ∧
          List.Forall₂ (c'.declarations underway).VariantMatches alternatives variants)
        fun _ => True := by
  induction alternatives with
  | nil =>
    intro _ c hc
    rw [variantsFrom]
    exact .pure ⟨hc.toSound, .nil⟩
  | cons node rest ih =>
    intro index c hc
    obtain ⟨hnode, hweight⟩ := h node List.mem_cons_self
    refine variantsFrom_cons_outcome (R := fun type c' =>
      Grows s.digest site.context.parent? none c c' ∧
        Resolved s.digest underway (site.child (toString index)).package node type c') ?_ ?_ ?_
    · intro _
      exact (classAt_growing _ node _).of_unowned.outcome
        (hnode.ofClass _ (site.child (toString index)) bound underway c hweight hc)
    · intro _
      exact (typeAt_growing _ node (site.child _)).outcome
        (hnode.ofType _ (site.child (toString index)) bound underway c hweight hc)
    · rintro type c₁ ⟨hgrows, hs, hwithin, hright⟩
      have hc₁ := hc.after hgrows hs
      refine ((joinVariant_growing parent _ type).outcome
        (joinVariant_sound hdigest hc₁ hwithin hright)).imp ?_
      rintro variant c₂ ⟨hgrows', hs', hvariant⟩
      have hc₂ := hc₁.after hgrows' hs'
      -- What the first alternative has got stays right while the others are resolved.
      refine ((variantsFrom_growing parent rest (index + 1)).outcome
        (ih (fun node hmem => h node (List.mem_cons_of_mem _ hmem)) (index + 1) c₂ hc₂)).imp ?_
      rintro variants c₃ ⟨hgrows'', hs'', hvariants⟩
      have hextends : (c₂.declarations underway).Extends (c₃.declarations underway) :=
        (hgrows''.keeps hc₂.toConsistent).extends
      exact ⟨hs'', .cons (hvariant.transfer hextends fun h => h.transfer hextends (.refl node))
        hvariants⟩

/-- A class with its members is complete. That it is right for its schema depends on the class as it
is then, and on what had been declared before. -/
theorem resolved_of_members (hc : Ready s.digest bound underway c) {info : SchemaInfo}
    {shape : ObjectSchema} {kind : ClassKind} {type : TypeName}
    (htop : type.IsTopLevel site.package) (hfree : c.IsFree type.key)
    {owner? sealed? : Option TypeName} {c' : Catalog} (hgrows : Grows s.digest owner? sealed?
      (c.addClass (classFrame s info shape site kind type)) c')
    (hc' : Ready s.digest (SchemaNode.mk info (.object shape)).weight (type :: underway) c')
    {f : ClassDecl → ClassDecl} (hf : ClassDecl.SetsMembers f)
    (hright : ∀ D d, d.kind = kind → (c'.declarations (type :: underway)).Extends D →
      D.class? type = some (f d) → D.Matches (.mk info (.object shape)) (.classType type)) :
    Resolved s.digest underway site.package (.mk info (.object shape)) (.classType type)
      (c'.modifyClass type.key f) := by
  have hkeeps := hgrows.keeps (hc.toConsistent.addClass hfree)
  have hadded : (c.addClass (classFrame s info shape site kind type)).classes.class? type.key =
      some (classFrame s info shape site kind type) := class?_addClass_self c _
  obtain ⟨d, hd, hgrow⟩ := hkeeps.classes hadded
  have hname : d.typeName = type := hgrow.typeName_eq.trans (typeName_classFrame htop)
  have hfound : ((c'.modifyClass type.key f).declarations underway).class? type = some (f d) := by
    refine class?_declarations.mpr ⟨?_, (hf.typeName_eq d).trans hname, hc.not_mem_of_free hfree⟩
    rw [class?_modifyClass, hd, Option.map_some, if_pos rfl]
  have hmatches := hright _ d hgrow.kind_eq (extends_complete hd hname) hfound
  refine ⟨hc'.complete hc'.toConsistent hf hd hname ?_ hmatches,
    TypeRef.within_classType.mpr htop, hmatches⟩
  obtain ⟨_, _, rfl, _⟩ := hgrow
  rfl

theorem classOf_resolved (hdigest : Function.Injective s.digest) {info : SchemaInfo}
    {shape : ObjectSchema} (hproperties : ∀ property ∈ shape.properties, Resolves s property.2)
    (halternatives : ∀ alternatives, shape.oneOf? = some alternatives →
      ∀ node ∈ alternatives, Resolves s node)
    (hvalues : ∀ values, shape.mapValues? = some values → Resolves s values.schema)
    (hweight : (SchemaNode.mk info (.object shape)).weight < bound)
    (hc : Ready s.digest bound underway c) :
    Outcome (classOf s name info shape (partsOf s shape) site) c
      (fun type c' => Resolved s.digest underway site.package (.mk info (.object shape))
        (.classType type) c') fun _ => True := by
  -- What holds once the class has its name.
  have hframe (kind : ClassKind) (type : TypeName) (htop : type.IsTopLevel site.package)
      (hfree : c.IsFree type.key) : Ready s.digest (SchemaNode.mk info (.object shape)).weight
        (type :: underway) (c.addClass (classFrame s info shape site kind type)) := by
    have h := hc.addClass hweight (d := classFrame s info shape site kind type) hfree
      (hc.toWellFormed.addClassFrame htop.2 hfree) rfl
    rwa [typeName_classFrame htop] at h
  refine classOf_outcome trivial ?_ ?_ ?_ ?_
  · exact fun type _ ⟨htop, _, _⟩ hheld => ⟨hc.toSound, TypeRef.within_classType.mpr htop,
      hc.matches_of_held hdigest hweight htop hheld⟩
  · intro type alternatives henum honeOf ⟨htop, _, _⟩ hfree
    have hc₁ := hframe .sealed type htop hfree
    have hvariants : Outcome (sealedVariants s alternatives type ((site.inside type).child "oneOf"))
        (c.addClass (classFrame s info shape site .sealed type))
        (fun variants c' => Sound s.digest (type :: underway) c' ∧
          (c'.declarations (type :: underway)).AlternativesMatch (some alternatives) variants)
        fun _ => True := by
      unfold sealedVariants
      cases hsole : soleScalars? alternatives with
      | some members =>
        simp only [Declarations.alternativesMatch_of_scalars hsole]
        exact aliasVariants_sound hdigest members 0 _ hc₁
      | none =>
        simp only [Declarations.alternativesMatch_iff hsole]
        exact variantsFrom_sound hdigest (fun node hmem => ⟨halternatives _ honeOf node hmem,
          SchemaNode.weight_lt_of_alternative honeOf hmem⟩) 0 _ hc₁
    refine ((sealedVariants_growing alternatives type ((site.inside type).child "oneOf")).outcome
      hvariants).imp ?_
    rintro variants c' ⟨hgrows, hs', hvariants⟩
    refine resolved_of_members hc htop hfree hgrows (hc₁.after hgrows hs')
      (fun d => ⟨d.kind, d.fields, variants, d.mapValue?, rfl⟩) fun D d hkind hextends hd => ?_
    rw [Declarations.matches_sealed henum honeOf]
    exact ⟨type, _, rfl, hd, hkind, hvariants.transfer hextends⟩
  · intro type values henum honeOf hmapValues ⟨htop, _, _⟩ hfree
    have hc₁ := hframe .mapWrapper type htop hfree
    refine ((typeAt_growing _ _ _).outcome ((hvalues values hmapValues).ofType _ _ _ _ _
      (SchemaNode.weight_lt_of_mapValues hmapValues) hc₁)).imp ?_
    rintro value c' ⟨hgrows, hs', _, hright⟩
    refine resolved_of_members hc htop hfree hgrows (hc₁.after hgrows hs')
      (fun d => ⟨d.kind, d.fields, d.variants, some value, rfl⟩) fun D d hkind hextends hd => ?_
    rw [Declarations.matches_map henum honeOf hmapValues]
    exact .inr ⟨type, _, rfl, hd, hkind, value, rfl, hright.transfer hextends (.refl _)⟩
  · intro type henum honeOf hmapValues ⟨htop, _, _⟩ hfree
    have hc₁ := hframe .plain type htop hfree
    refine ((fieldsAt_growing shape.required shape.properties).outcome
      (fieldsAt_sound (fun property hmem => ⟨hproperties property hmem,
        SchemaNode.weight_lt_of_property hmem⟩) _ hc₁)).imp ?_
    rintro fields c' ⟨hgrows, hs', hfields⟩
    refine resolved_of_members hc htop hfree hgrows (hc₁.after hgrows hs')
      (fun d => ⟨_, fields, d.variants, d.mapValue?, rfl⟩) fun D d hkind hextends hd => ?_
    rw [Declarations.matches_data henum honeOf hmapValues]
    refine ⟨type, _, rfl, hd, ?_, fields, .refl _, ?_⟩
    · rw [isEmpty_eq_of_length_eq hfields.length_eq]
      rfl
    · exact hfields.imp fun _ _ h => ⟨h.1, h.2.transfer hextends (.refl _)⟩

theorem resolves (hdigest : Function.Injective s.digest) (hseparates : s.SeparatesEnums)
    (node : SchemaNode) : Resolves s node := by
  induction node using SchemaNode.byChildren with
  | scalar info kind =>
    refine ⟨fun hint? site bound underway c _ hc => ?_,
      fun _ _ _ _ _ _ _ => classAt_outcome_of_not_object rfl trivial⟩
    refine typeAt_scalar_outcome trivial (fun hplain => ⟨hc.toSound, nofun, ?_⟩) ?_
    · have hvalues : (SchemaNode.mk info (.scalar kind)).enumValues? = none := by
        refine hplain.elim id fun hwraps => ?_
        rw [hseparates.wraps_eq] at hwraps
        exact Option.isNone_iff_eq_none.mp (Option.isSome_eq_false_iff.mp hwraps)
      exact (Declarations.matches_scalar hvalues).mpr rfl
    · intro values content hvalues hcontent
      rw [hseparates.placement_eq]
      exact declareEnum_resolved hdigest hc hvalues (.inl ⟨kind, rfl, hcontent⟩)
  | null info =>
    exact ⟨fun _ _ _ _ _ _ hc => typeAt_null_outcome trivial
        ⟨hc.toSound, nofun, Declarations.matches_null.mpr rfl⟩,
      fun _ _ _ _ _ _ _ => classAt_outcome_of_not_object rfl trivial⟩
  | array info items ih =>
    refine ⟨fun hint? site bound underway c hweight hc => ?_,
      fun _ _ _ _ _ _ _ => classAt_outcome_of_not_object rfl trivial⟩
    refine typeAt_array_outcome trivial ((ih.ofType _ (site.child "items") bound underway c
      ((SchemaNode.weight_lt_array info items).trans hweight) hc).imp ?_)
    rintro item c' ⟨hs, hwithin, hright⟩
    exact ⟨hs, hwithin, Declarations.matches_array.mpr ⟨item, rfl, hright⟩⟩
  | object info shape hproperties halternatives hmap =>
    have hclass (name : String) (site : Site) (bound : ℕ) (underway : List TypeName) (c : Catalog)
        (hweight : (SchemaNode.mk info (.object shape)).weight < bound)
        (hc : Ready s.digest bound underway c) :
        Outcome (classOf s name info shape (partsOf s shape) site) c
          (fun type c' => Resolved s.digest underway site.package (.mk info (.object shape))
            (.classType type) c') fun _ => True :=
      classOf_resolved hdigest hproperties halternatives hmap hweight hc
    constructor
    · intro hint? site bound underway c hweight hc
      refine typeAt_object_outcome trivial ?_ ?_ ?_
      · intro values content hvalues hcontent
        rw [hseparates.placement_eq]
        exact declareEnum_resolved hdigest hc hvalues (.inr ⟨shape, rfl, hcontent⟩)
      · intro values hvalues honeOf hmapValues
        refine ((hmap values hmapValues).ofType _ (site.child values.keyword.name) bound underway c
          ((SchemaNode.weight_lt_of_mapValues hmapValues).trans hweight) hc).imp ?_
        rintro value c' ⟨hs, hwithin, hright⟩
        exact ⟨hs, hwithin,
          (Declarations.matches_map hvalues honeOf hmapValues).mpr (.inl ⟨value, rfl, hright⟩)⟩
      · exact fun name _ _ _ => hclass name site bound underway c hweight hc
    · exact fun name site bound underway c hweight hc =>
        classAt_object_outcome trivial (hclass name site bound underway c hweight hc)

/-! ## Runs -/

theorem Call.act_matches (call : Call) (hdigest : Function.Injective call.settings.digest)
    (hseparates : call.settings.SeparatesEnums) (hc : c.WellFormed call.settings.digest)
    (hs : Sound call.settings.digest [] c) :
    Outcome call.act c (fun type c' => Sound call.settings.digest [] c' ∧
      c'.declarations.Matches call.node type) fun _ => True := by
  have hnode := resolves hdigest hseparates call.node
  unfold act
  split
  · exact (hnode.ofType _ _ _ [] c (Nat.lt_succ_self _) (.of_sound hc hs)).imp fun _ _ h =>
      ⟨h.sound, h.isRight⟩
  · exact (hnode.ofType _ _ _ [] c (Nat.lt_succ_self _) (.of_sound hc hs)).imp fun _ _ h =>
      ⟨h.sound, h.isRight⟩
  · exact .map ((hnode.ofClass _ _ _ [] c (Nat.lt_succ_self _) (.of_sound hc hs)).imp
      fun _ _ h => ⟨h.sound, h.isRight⟩)
  · refine .map (resolveSeparateEnum_outcome trivial fun values content hvalues hcontent => ?_)
    have hready : Ready call.settings.digest 0 [] c := .of_sound hc hs
    exact (declareEnum_resolved hdigest hready hvalues hcontent).imp fun _ _ h =>
      ⟨h.sound, h.isRight⟩

/-- Calls that succeed one after the other find types that are right for their schemas, and these
stay right whatever is called later. The digest has no collision among the texts of the calls. -/
theorem resolved_types_match {digest : Digest} {calls : List Call}
    (hdigest : Set.InjOn digest {text | text ∈ digestedTexts digest calls})
    (hcalls : ∀ call ∈ calls, call.settings.digest = digest ∧ call.settings.SeparatesEnums)
    {types : List TypeRef} {st : ResolutionState} (hrun : resolveAll calls {} = .ok types st)
    (later : List Call) :
    List.Forall₂ (fun call type =>
      (later.foldl Call.after st).catalog.declarations.Matches call.node type) calls types := by
  obtain ⟨other, hother, hsame⟩ :=
    exists_injective_resolveAll (fun call hmem => (hcalls call hmem).1) hdigest
  have hcalls' : ∀ call ∈ calls.map (·.withDigest other),
      call.settings.digest = other ∧ call.settings.SeparatesEnums :=
    List.forall_mem_map.mpr fun call hmem =>
      have hseparates := (hcalls call hmem).2
      ⟨rfl, hseparates.placement_eq, hseparates.wraps_eq⟩
  have hkept {call : Call} {type : TypeRef} {c c' : Catalog} (hkeeps : c.Keeps c')
      (h : c.declarations.Matches call.node type) : c'.declarations.Matches call.node type :=
    h.transfer hkeeps.extends (.refl call.node)
  have hout : Outcome (resolveAll (calls.map (·.withDigest other)))
      ({} : ResolutionState).catalog _ _ :=
    resolveAll_outcome (I := Sound other [])
      (R := fun call type c => c.declarations.Matches call.node type)
      (fun call hmem => (hcalls' call hmem).1)
      (fun call hmem c hc hs => by
        obtain ⟨rfl, hseparates⟩ := hcalls' call hmem
        exact call.act_matches hother hseparates hc hs)
      hkept (wellFormed_empty other) (sound_empty other)
  obtain ⟨hc, _, _, hmatches⟩ := hout.of_ok (hsame.trans hrun)
  exact (List.forall₂_map_left_iff.mp hmatches).imp fun _ _ h =>
    hkept (keeps_foldl_after later hc.toConsistent) h

/-- Two schemas of one shape. They differ in the order of the properties. -/
def lamps : List Call :=
  let properties : List (String × SchemaNode) :=
    [("mode", .mk { enumeration? := some [.string "on", .null, .string "off"] } (.scalar .string)),
      ("light", .mk {} (.object
        { oneOf? := some [.ofProperties [("hue", .mk {} (.scalar .number))] [],
            .mk {} (.scalar .string)] }))]
  [properties, properties.reverse].map fun properties =>
    { settings := { placement := .separate }
      request := .classNamed "Lamp"
      node := .ofProperties properties ["mode"]
      package := "p"
      context := .root }

/-- Both schemas resolve to the class that is declared for the first. -/
theorem resolved_types_match_lamps : ∃ type st, resolveAll lamps {} = .ok [type, type] st ∧
    ∀ later : List Call, List.Forall₂ (fun call type =>
      (later.foldl Call.after st).catalog.declarations.Matches call.node type) lamps
      [type, type] := by
  let lamp : TypeRef := .classType { package := "p", name := "Lamp" }
  have hrun : Set.InjOn Digest.sha256 {text | text ∈ digestedTexts .sha256 lamps} ∧
      (match resolveAll lamps {} with
        | .ok types _ => types
        | .error _ _ => []) = [lamp, lamp] := by decide +kernel
  have hcalls : ∀ call ∈ lamps,
      call.settings.digest = .sha256 ∧ call.settings.SeparatesEnums := by
    intro call hmem
    obtain ⟨_, _, rfl⟩ := List.mem_map.mp hmem
    exact ⟨rfl, rfl, rfl⟩
  obtain ⟨hdigest, hrun⟩ := hrun
  cases h : resolveAll lamps {} with
  | error e st => simp [h] at hrun
  | ok types st =>
    rw [h] at hrun
    subst hrun
    exact ⟨lamp, st, rfl, resolved_types_match hdigest hcalls h⟩

end Resolution

end ThingTypes
