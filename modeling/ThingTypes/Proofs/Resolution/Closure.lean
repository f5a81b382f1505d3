import ThingTypes.Proofs.Resolution.References

/-
  Resolutions keep references closed. Every rule for a step that declares something has one lemma
  here; the induction over schemas puts them together. A resolution below a class needs that class in
  the catalog, since enums nest in it: it is, from before its members are resolved.
-/

namespace ThingTypes.Resolution

open Catalog

variable {s : ResolutionSettings} {site : Site} {c : Catalog} {outer name : String}
  {parent : TypeName}

/-- The reference is plain and leads somewhere, in a catalog that can be relied on. -/
structure LinksTo (s : ResolutionSettings) (outer : String) (type : TypeRef) (c : Catalog) :
    Prop where
  linked : c.Linked s outer
  plain : type.IsPlain
  held : type.HeldIn s.placement c

/-- The site is in order: it is below the outer package, and the class around it is declared. -/
structure Open (outer : String) (site : Site) (c : Catalog) : Prop where
  beneath : Beneath outer site
  held : ∀ parent ∈ site.context.parent?, c.HoldsClass parent

namespace Open

variable {c' : Catalog}

theorem child (h : Open outer site c) (segment : String) : Open outer (site.child segment) c :=
  ⟨h.beneath.child segment, h.held⟩

theorem retained (h : Open outer site c) (hkept : c.Retains c') : Open outer site c' :=
  ⟨h.beneath, fun parent hmem => (h.held parent hmem).retained hkept⟩

theorem inside (h : Open outer site c) {type : TypeName} (htype : type.IsPlain)
    (hheld : c.HoldsClass type) : Open outer (site.inside type) c := by
  refine ⟨h.beneath.inside htype, ?_⟩
  rintro parent ⟨⟩
  exact hheld

end Open

/-! ## Enums and aliases -/

theorem declareEnum_links (hc : c.Linked s outer) (hopen : Open outer site c)
    {hint? : Option String} {info : SchemaInfo} {content : EnumContent}
    {placement : EnumPlacement} (hplacement : s.placement = .separate → placement = .separate) :
    Outcome (declareEnum s hint? info content site placement) c
      (fun type c' => LinksTo s outer (.enumType type) c') fun _ => True := by
  refine declareEnum_outcome trivial ?_ ?_ ?_
  · intro name owner hname hinline hparent
    have howner := hopen.beneath.parent owner hparent
    have hheld := hopen.held owner hparent
    have hsettings : s.placement = .inline := by
      cases h : s.placement with
      | inline => rfl
      | separate =>
        rw [hplacement h] at hinline
        cases hinline
    refine ⟨hc.nest hsettings rfl rfl, ?_, ?_⟩
    · rintro _ ⟨⟩
      refine ⟨howner.package, isName_of_hintedName? hname, ?_⟩
      rintro _ ⟨⟩
      exact howner.name.plain
    · obtain ⟨d, hd⟩ := Option.ne_none_iff_exists'.mp hheld.2
      refine ⟨d.nestEnum (enumDecl name info content owner.package (some owner.name)), ?_, ?_⟩
      · change (c.nest owner.key _).classes.class? owner.key = _
        rw [class?_nest, hd, Option.map_some, if_pos rfl]
      · rw [ClassDecl.nestedEnum?_nestEnum]
        exact ne_of_eq_of_ne (if_pos rfl) nofun
  · intro name found hname _ hfound henum
    refine ⟨hc.addEnum rfl (separateEnumName_free hfound) henum, ?_, fun _ => ?_⟩
    · rintro _ ⟨⟩
      exact ⟨hopen.beneath.package,
        hopen.beneath.isName_separateEnumName (isName_of_hintedName? hname) hfound, nofun⟩
    · exact ne_of_eq_of_ne (separate?_addEnum_self _ _) nofun
  · intro name found hname _ hfound henum
    refine ⟨hc, ?_, fun hplacement => hc.separate hplacement ?_⟩
    · rintro _ ⟨⟩
      exact ⟨hopen.beneath.package,
        hopen.beneath.isName_separateEnumName (isName_of_hintedName? hname) hfound, nofun⟩
    · exact ne_of_eq_of_ne henum nofun

theorem declareAlias_links (hdigest : Function.Injective s.digest) (hopen : Open outer site c)
    (hparent : c.HoldsClass parent) {target : TypeRef} (htarget : LinksTo s outer target c) :
    Outcome (declareAlias s name target parent site) c
      (fun type c' => LinksTo s outer (.aliasType type) c') fun _ => True := by
  have hc := htarget.linked
  refine declareAlias_outcome trivial ?_ ?_
  · intro type hoffers hheld
    have htext : ¬IsInterfaceText ("alias:" ++ target.signature) :=
      ((by decide : Plain "alias:").append htarget.plain.plain_signature).not_isInterfaceText
    obtain ⟨a, ha, _⟩ := hc.exists_alias hdigest htext hheld
    refine ⟨hc, ?_, hoffers.topLevel.2, ne_of_eq_of_ne ha nofun⟩
    rintro _ ⟨⟩
    exact hopen.beneath.isPlain_of_offers hoffers
  · intro type hoffers hfree
    have hdeeper := hopen.beneath.deeper
    rw [← hoffers.topLevel.1] at hdeeper
    refine ⟨hc.addAlias hfree hdeeper htarget.held hparent, ?_, hoffers.topLevel.2, ?_⟩
    · rintro _ ⟨⟩
      exact hopen.beneath.isPlain_of_offers hoffers
    · exact ne_of_eq_of_ne (alias?_addAlias_self _ _) nofun

theorem joinVariant_links (hdigest : Function.Injective s.digest) (hopen : Open outer site c)
    (hparent : c.HoldsClass parent) {type : TypeRef} (htype : LinksTo s outer type c) :
    Outcome (joinVariant s parent name type site) c
      (fun variant c' => LinksTo s outer variant c') fun _ => True := by
  refine joinVariant_outcome ?_ fun _ => declareAlias_links hdigest hopen hparent htype
  rintro variant rfl
  have hkept : c.Retains (c.modifyClass variant.key (·.addSealedParent parent)) :=
    .modifyClass fun d name hname => by
      obtain ⟨_, h, _⟩ := d.addSealedParent_eq parent
      rwa [h]
  exact ⟨htype.linked.join variant.key hparent, htype.plain, htype.held.retained hkept⟩

/-! ## Members -/

/-- All of the references lead somewhere. -/
structure AllLink (s : ResolutionSettings) (outer : String) (types : List TypeRef) (c : Catalog) :
    Prop where
  linked : c.Linked s outer
  held : ∀ type ∈ types, type.HeldIn s.placement c

theorem AllLink.nil (hc : c.Linked s outer) : AllLink s outer [] c := ⟨hc, nofun⟩

theorem AllLink.cons {type : TypeRef} {types : List TypeRef} {c' : Catalog}
    (htype : type.HeldIn s.placement c) (hkept : c.Retains c') (h : AllLink s outer types c') :
    AllLink s outer (type :: types) c' :=
  ⟨h.linked, List.forall_mem_cons.mpr ⟨htype.retained hkept, h.held⟩⟩

theorem aliasVariants_links (hdigest : Function.Injective s.digest)
    (members : List (String × ScalarKind)) :
    ∀ {index c}, c.Linked s outer → Open outer site c → c.HoldsClass parent →
      Outcome (aliasVariants s parent site index members) c
        (fun variants c' => AllLink s outer variants c') fun _ => True := by
  induction members with
  | nil => exact fun hc _ _ => .pure (.nil hc)
  | cons member rest ih =>
    intro index c hc hopen hparent
    have htarget : LinksTo s outer (.primitive member.2) c := ⟨hc, nofun, trivial⟩
    refine aliasVariants_cons_outcome (((declareAlias_growing _ _ parent).outcome
      (declareAlias_links hdigest (hopen.child _) hparent htarget)).imp ?_)
    rintro type c' ⟨hgrows, htype⟩
    have hkept := hgrows.retains hc.toNamed
    refine (((aliasVariants_growing parent rest _).outcome
      (ih htype.linked (hopen.retained hkept) (hparent.retained hkept))).imp ?_)
    rintro variants c'' ⟨hgrows', hvariants⟩
    exact .cons htype.held (hgrows'.retains htype.linked.toNamed) hvariants

/-- Resolving the schema below the outer package leads to references that are held. -/
structure Links (s : ResolutionSettings) (outer : String) (node : SchemaNode) : Prop where
  ofType : ∀ hint? site {c}, c.Linked s outer → Open outer site c →
    Outcome (typeAt s hint? node site) c (fun type c' => LinksTo s outer type c') fun _ => True
  ofClass : ∀ name site {c}, c.Linked s outer → Open outer site c →
    Outcome (classAt s name node site) c
      (fun type c' => LinksTo s outer (.classType type) c') fun _ => True

theorem fieldsAt_links {properties : List (String × SchemaNode)} {required : List String}
    (h : ∀ property ∈ properties, Links s outer property.2) :
    ∀ {c}, c.Linked s outer → Open outer site c →
      Outcome (fieldsAt s required properties site) c
        (fun fields c' => AllLink s outer (fields.map FieldDecl.type) c') fun _ => True := by
  induction properties with
  | nil => exact fun hc _ => .pure (.nil hc)
  | cons property rest ih =>
    intro c hc hopen
    have hproperty := (h property List.mem_cons_self).ofType (some property.1)
      (site.child property.1) hc (hopen.child _)
    refine fieldsAt_cons_outcome (((typeAt_growing _ _ _).outcome hproperty).imp ?_)
    rintro type c' ⟨hgrows, htype⟩
    have hkept := hgrows.retains hc.toNamed
    have hrest := ih (fun property hmem => h property (List.mem_cons_of_mem _ hmem))
      htype.linked (hopen.retained hkept)
    refine ((fieldsAt_growing required rest).outcome hrest).imp ?_
    rintro fields c'' ⟨hgrows', hfields⟩
    exact .cons htype.held (hgrows'.retains htype.linked.toNamed) hfields

theorem variantsFrom_links (hdigest : Function.Injective s.digest)
    {alternatives : List SchemaNode} (h : ∀ node ∈ alternatives, Links s outer node) :
    ∀ index {c}, c.Linked s outer → Open outer site c → c.HoldsClass parent →
      Outcome (variantsFrom s parent alternatives index site) c
        (fun variants c' => AllLink s outer variants c') fun _ => True := by
  induction alternatives with
  | nil =>
    intro index c hc _ _
    rw [variantsFrom]
    exact .pure (.nil hc)
  | cons node rest ih =>
    intro index c hc hopen hparent
    have hnode := h node List.mem_cons_self
    refine variantsFrom_cons_outcome (R := fun type c' =>
      Grows s.digest site.context.parent? none c c' ∧ LinksTo s outer type c') ?_ ?_ ?_
    · intro _
      exact (classAt_growing _ node _).of_unowned.outcome (hnode.ofClass _ _ hc (hopen.child _))
    · intro _
      exact (typeAt_growing _ node (site.child _)).outcome (hnode.ofType _ _ hc (hopen.child _))
    · rintro type c₁ ⟨hgrows, htype⟩
      have hkept := hgrows.retains hc.toNamed
      have hopen₁ := hopen.retained hkept
      have hparent₁ := hparent.retained hkept
      refine ((joinVariant_growing parent _ type).outcome
        (joinVariant_links hdigest (hopen₁.child _) hparent₁ htype)).imp ?_
      rintro variant c₂ ⟨hgrows', hvariant⟩
      have hkept' := hgrows'.retains htype.linked.toNamed
      have hrest := ih (fun node hmem => h node (List.mem_cons_of_mem _ hmem)) (index + 1)
        hvariant.linked (hopen₁.retained hkept') (hparent₁.retained hkept')
      refine ((variantsFrom_growing parent rest (index + 1)).outcome hrest).imp ?_
      rintro variants c₃ ⟨hgrows'', hvariants⟩
      exact .cons hvariant.held (hgrows''.retains hvariant.linked.toNamed) hvariants

/-! ## Schemas -/

/-- Members that are held are set in a class that is declared. -/
theorem linksTo_of_members {type : TypeName} (hc : c.Linked s outer) (hplain : type.IsPlain)
    (hheld : c.HoldsClass type) {f : ClassDecl → ClassDecl} (hf : ClassDecl.SetsMembers f)
    (hclosed : ∀ c', c.Retains c' → ∀ d, d.Closed s.placement c' → (f d).Closed s.placement c') :
    LinksTo s outer (.classType type) (c.modifyClass type.key f) where
  linked := hc.setMembers hf hclosed
  plain := by
    rintro _ ⟨⟩
    exact hplain
  held := hheld.retained <| .modifyClass fun d name hname => by
    rw [ClassDecl.nestedEnum?, hf.nestedEnums_eq]
    exact hname

theorem classOf_links (hdigest : Function.Injective s.digest) {info : SchemaInfo}
    {shape : ObjectSchema} (hproperties : ∀ property ∈ shape.properties, Links s outer property.2)
    (halternatives : ∀ alternatives, shape.oneOf? = some alternatives →
      ∀ node ∈ alternatives, Links s outer node)
    (hvalues : ∀ values, shape.mapValues? = some values → Links s outer values.schema)
    (hc : c.Linked s outer) (hopen : Open outer site c) :
    Outcome (classOf s name info shape (partsOf s shape) site) c
      (fun type c' => LinksTo s outer (.classType type) c') fun _ => True := by
  -- The class is declared without members, and what stands inside it is resolved.
  have hframe (kind : ClassKind) (type : TypeName) (hoffers : Offers s site name type)
      (hfree : c.IsFree type.key) :
      type.IsPlain ∧ (c.addClass (classFrame s info shape site kind type)).Linked s outer ∧
        (c.addClass (classFrame s info shape site kind type)).HoldsClass type ∧
        Open outer (site.inside type)
          (c.addClass (classFrame s info shape site kind type)) := by
    have hplain := hopen.beneath.isPlain_of_offers hoffers
    have hdeeper := hopen.beneath.deeper
    rw [← hoffers.topLevel.1] at hdeeper
    have hkept : c.Retains (c.addClass (classFrame s info shape site kind type)) :=
      .addClass (hc.class?_of_free hfree.1)
    have hheld : (c.addClass (classFrame s info shape site kind type)).HoldsClass type :=
      ⟨hoffers.topLevel.2, ne_of_eq_of_ne (class?_addClass_self c _) nofun⟩
    exact ⟨hplain, hc.addClassFrame hoffers.topLevel.2 hfree hdeeper, hheld,
      (hopen.retained hkept).inside hplain hheld⟩
  refine classOf_outcome trivial ?_ ?_ ?_ ?_
  · intro type _ hoffers hheld
    obtain ⟨d, hd, _⟩ := hc.exists_class hdigest (SchemaNode.not_isInterfaceText _) hheld
    refine ⟨hc, ?_, hoffers.topLevel.2, ne_of_eq_of_ne hd nofun⟩
    rintro _ ⟨⟩
    exact hopen.beneath.isPlain_of_offers hoffers
  · intro type alternatives _ honeOf hoffers hfree
    obtain ⟨hplain, hc₁, hheld₁, hopen₁⟩ := hframe .sealed type hoffers hfree
    have hvariants : Outcome
        (sealedVariants s alternatives type ((site.inside type).child "oneOf"))
        (c.addClass (classFrame s info shape site .sealed type))
        (fun variants c' => AllLink s outer variants c') fun _ => True := by
      unfold sealedVariants
      split
      · exact aliasVariants_links hdigest _ hc₁ (hopen₁.child _) hheld₁
      · exact variantsFrom_links hdigest (halternatives alternatives honeOf) 0 hc₁
          (hopen₁.child _) hheld₁
    refine ((sealedVariants_growing alternatives type _).outcome hvariants).imp ?_
    rintro variants c' ⟨hgrows, hvariants⟩
    have hheld := hheld₁.retained (hgrows.retains hc₁.toNamed)
    exact linksTo_of_members hvariants.linked hplain hheld
      (fun d => ⟨d.kind, d.fields, variants, d.mapValue?, rfl⟩) fun c'' hkept d hd =>
        { hd with variants := fun variant hmem => (hvariants.held variant hmem).retained hkept }
  · intro type values _ _ hmapValues hoffers hfree
    obtain ⟨hplain, hc₁, hheld₁, hopen₁⟩ := hframe .mapWrapper type hoffers hfree
    refine ((typeAt_growing _ values.schema _).outcome
      ((hvalues values hmapValues).ofType _ _ hc₁ (hopen₁.child _))).imp ?_
    rintro value c' ⟨hgrows, hvalue⟩
    have hheld := hheld₁.retained (hgrows.retains hc₁.toNamed)
    refine linksTo_of_members hvalue.linked hplain hheld
      (fun d => ⟨d.kind, d.fields, d.variants, some value, rfl⟩) fun c'' hkept d hd =>
        { hd with mapValue := ?_ }
    rintro _ ⟨⟩
    exact hvalue.held.retained hkept
  · intro type _ _ _ hoffers hfree
    obtain ⟨hplain, hc₁, hheld₁, hopen₁⟩ := hframe .plain type hoffers hfree
    refine ((fieldsAt_growing shape.required shape.properties).outcome
      (fieldsAt_links hproperties hc₁ hopen₁)).imp ?_
    rintro fields c' ⟨hgrows, hfields⟩
    have hheld := hheld₁.retained (hgrows.retains hc₁.toNamed)
    refine linksTo_of_members hfields.linked hplain hheld
      (fun d => ⟨_, fields, d.variants, d.mapValue?, rfl⟩) fun c'' hkept d hd => ?_
    refine ⟨fun field hmem => ?_, hd.variants, hd.mapValue, hd.parents⟩
    exact (hfields.held _ (List.mem_map_of_mem hmem)).retained hkept

theorem links (hdigest : Function.Injective s.digest) (node : SchemaNode) :
    Links s outer node := by
  induction node using SchemaNode.byChildren with
  | scalar info kind =>
    refine ⟨fun hint? site c hc hopen => ?_,
      fun _ _ _ _ _ => classAt_outcome_of_not_object rfl trivial⟩
    exact typeAt_scalar_outcome trivial (fun _ => ⟨hc, nofun, trivial⟩) fun _ _ _ _ =>
      declareEnum_links hc hopen id
  | null info =>
    exact ⟨fun _ _ _ hc _ => typeAt_null_outcome trivial ⟨hc, nofun, trivial⟩,
      fun _ _ _ _ _ => classAt_outcome_of_not_object rfl trivial⟩
  | array info items ih =>
    refine ⟨fun hint? site c hc hopen => ?_,
      fun _ _ _ _ _ => classAt_outcome_of_not_object rfl trivial⟩
    exact typeAt_array_outcome trivial ((ih.ofType _ _ hc (hopen.child _)).imp
      fun _ _ h => ⟨h.linked, h.plain, h.held⟩)
  | object info shape hproperties halternatives hvalues =>
    constructor
    · intro hint? site c hc hopen
      refine typeAt_object_outcome trivial ?_ ?_ ?_
      · exact fun _ _ _ _ => declareEnum_links hc hopen id
      · intro values _ _ hmapValues
        exact ((hvalues values hmapValues).ofType _ _ hc (hopen.child _)).imp
          fun _ _ h => ⟨h.linked, h.plain, h.held⟩
      · exact fun _ _ _ _ => classOf_links hdigest hproperties halternatives hvalues hc hopen
    · exact fun _ _ _ hc hopen => classAt_object_outcome trivial
        (classOf_links hdigest hproperties halternatives hvalues hc hopen)

end ThingTypes.Resolution
