import ThingTypes.Proofs.Identifier.TypeNames
import ThingTypes.Proofs.Resolution.Matching
import ThingTypes.Proofs.Resolution.References
import ThingTypes.Proofs.Schema.Titles

/-
  How declared types are called. Every name is made of a title, of the key of a property or of a
  name given before. So names are spelled as names of types are (`Identifier.IsTypeName`) if all
  titles and keys in a schema can name types (`SchemaNode.NamedBy`).
-/

namespace ThingTypes

open Identifier (IsTypeName IsHint)

/-! ## Catalogs -/

/-- The names of a class and of the enums nested in it. -/
def ClassDecl.typeNames (d : ClassDecl) : List String :=
  d.name :: d.nestedEnums.map EnumDecl.name

namespace Catalog

/-- The names of classes and of the enums nested in them, of aliases and of enums. -/
def typeNames (c : Catalog) : List String :=
  c.classes.classes.entries.flatMap (·.2.typeNames) ++ c.classes.aliases.entries.map (·.2.name) ++
    c.enums.separate.entries.map (·.2.name) ++ c.enums.inline.entries.map (·.2.name)

/-- All declared types have names of a kind. -/
structure AllNamed (Name : String → Prop) (c : Catalog) : Prop where
  classes : ∀ e ∈ c.classes.classes.entries, ∀ name ∈ e.2.typeNames, Name name
  aliases : ∀ e ∈ c.classes.aliases.entries, Name e.2.name
  separate : ∀ e ∈ c.enums.separate.entries, Name e.2.name
  inline : ∀ e ∈ c.enums.inline.entries, Name e.2.name

variable {Name : String → Prop} {c : Catalog}

theorem allNamed_empty (Name : String → Prop) : AllNamed Name {} where
  classes _ he := absurd he List.not_mem_nil
  aliases _ he := absurd he List.not_mem_nil
  separate _ he := absurd he List.not_mem_nil
  inline _ he := absurd he List.not_mem_nil

namespace AllNamed

theorem typeNames (h : c.AllNamed Name) : ∀ name ∈ c.typeNames, Name name := by
  intro name hname
  simp only [Catalog.typeNames, List.mem_append, List.mem_flatMap, List.mem_map] at hname
  obtain ((⟨e, he, hname⟩ | ⟨e, he, rfl⟩) | ⟨e, he, rfl⟩) | ⟨e, he, rfl⟩ := hname
  · exact h.classes e he name hname
  · exact h.aliases e he
  · exact h.separate e he
  · exact h.inline e he

theorem addClass (h : c.AllNamed Name) {d : ClassDecl} (hd : ∀ name ∈ d.typeNames, Name name) :
    (c.addClass d).AllNamed Name where
  classes e he := by
    rcases Entries.mem_of_mem_insert he with rfl | he
    · exact hd
    · exact h.classes e he
  aliases := h.aliases
  separate := h.separate
  inline := h.inline

theorem addAlias (h : c.AllNamed Name) {a : AliasDecl} (ha : Name a.name) :
    (c.addAlias a).AllNamed Name where
  classes := h.classes
  aliases e he := by
    rcases Entries.mem_of_mem_insert he with rfl | he
    · exact ha
    · exact h.aliases e he
  separate := h.separate
  inline := h.inline

theorem addEnum (h : c.AllNamed Name) {e : EnumDecl} (hname : Name e.name) :
    (c.addEnum e).AllNamed Name where
  classes := h.classes
  aliases := h.aliases
  separate e he := by
    rcases Entries.mem_of_mem_insert he with rfl | he
    · exact hname
    · exact h.separate e he
  inline := h.inline

theorem modifyClass (h : c.AllNamed Name) (key : TypeKey) {f : ClassDecl → ClassDecl}
    (hf : ∀ d, ∀ name ∈ (f d).typeNames, name ∈ d.typeNames ∨ Name name) :
    (c.modifyClass key f).AllNamed Name where
  classes e he name hname := by
    obtain ⟨e', he', rfl⟩ := List.mem_map.mp he
    dsimp only at hname
    split at hname
    · exact (hf e'.2 name hname).elim (h.classes e' he' name) id
    · exact h.classes e' he' name hname
  aliases := h.aliases
  separate := h.separate
  inline := h.inline

theorem nest (h : c.AllNamed Name) (owner : TypeKey) {e : EnumDecl} (hname : Name e.name) :
    (c.nest owner e).AllNamed Name := by
  have henums : AllNamed Name { c with enums := c.enums.insertInline e } :=
    { h with
      inline := fun e he => by
        rcases Entries.mem_of_mem_insert he with rfl | he
        · exact hname
        · exact h.inline e he }
  refine henums.modifyClass owner fun d name hmem => ?_
  rcases List.mem_cons.mp hmem with rfl | hmem
  · exact .inl List.mem_cons_self
  · obtain ⟨e', he', rfl⟩ := List.mem_map.mp hmem
    rcases mem_nestEnum he' with rfl | hold
    · exact .inr hname
    · exact .inl (List.mem_cons_of_mem _ (List.mem_map_of_mem hold))

/-- Members have no names of their own. -/
theorem setMembers (h : c.AllNamed Name) (key : TypeKey) {f : ClassDecl → ClassDecl}
    (hf : ∀ d, (f d).name = d.name ∧ (f d).nestedEnums = d.nestedEnums) :
    (c.modifyClass key f).AllNamed Name := by
  refine h.modifyClass key fun d name hname => .inl ?_
  rwa [ClassDecl.typeNames, (hf d).1, (hf d).2] at hname

end AllNamed

end Catalog

namespace Resolution

open Catalog

variable {digits : Char → Prop} {s : ResolutionSettings} {site : Site} {c : Catalog}
  {name : String} {type parent : TypeName}

/-! ## Names from hints -/

/-- What stands around the site is called as types are. -/
structure NamedAround (digits : Char → Prop) (site : Site) : Prop where
  parent : ∀ parent ∈ site.context.parent?, IsTypeName digits parent.name
  feature : ∀ feature ∈ site.context.feature?, IsTypeName digits feature

namespace NamedAround

theorem parentName (h : NamedAround digits site) :
    ∀ parent ∈ site.context.parentName?, IsTypeName digits parent := by
  intro parent hmem
  obtain ⟨type, htype, rfl⟩ := Option.map_eq_some_iff.mp hmem
  exact h.parent type htype

theorem child (h : NamedAround digits site) (segment : String) :
    NamedAround digits (site.child segment) :=
  ⟨h.parent, h.feature⟩

theorem inside (h : NamedAround digits site) (htype : IsTypeName digits type.name) :
    NamedAround digits (site.inside type) := by
  refine ⟨?_, h.feature⟩
  rintro _ ⟨⟩
  exact htype

theorem of_offers (h : NamedAround digits site) (hname : IsHint digits name)
    (hoffers : Offers s site name type) : IsTypeName digits type.name :=
  hoffers.of_rule Identifier.isTypeName_rule (hname.className hoffers.ne_empty) h.parentName
    h.feature

end NamedAround

theorem isTypeName_of_hintedName? {hint? title? : Option String}
    (hhint : ∀ hint ∈ hint?, IsHint digits hint) (htitle : ∀ title ∈ title?, IsHint digits title)
    (h : hintedName? hint? title? = some name) : IsTypeName digits name := by
  obtain ⟨hname, hne⟩ := Option.filter_eq_some_iff.mp h
  obtain ⟨hint, hor, rfl⟩ := Option.map_eq_some_iff.mp hname
  have hhint' : IsHint digits hint := by
    rcases Option.or_eq_some_iff.mp hor with hor | ⟨-, hor⟩
    · exact hhint hint hor
    · exact htitle hint hor
  exact hhint'.className (by simpa using hne)

theorem isHint_of_itemHint? {hint? : Option String} {items : SchemaInfo}
    (hhint : ∀ hint ∈ hint?, IsHint digits hint)
    (htitle : ∀ title ∈ items.title?, IsHint digits title) :
    ∀ hint ∈ itemHint? hint? items, IsHint digits hint := by
  intro item hitem
  rcases Option.or_eq_some_iff.mp hitem with hitem | ⟨-, hitem⟩
  · obtain ⟨hint, hmem, rfl⟩ := Option.map_eq_some_iff.mp hitem
    exact ((hhint hint hmem).className_append (Identifier.isTypeName_of_capital rfl rfl)).isHint
  · exact htitle item hitem

/-- An alternative is named by its title, by its only property or by its sealed class. -/
theorem isHint_variantName {node : SchemaNode} (hnode : node.NamedBy (IsHint digits))
    (hparent : IsTypeName digits parent.name) (index : Nat) :
    IsHint digits (variantName parent index node) := by
  unfold variantName
  cases htitle : node.info.title? with
  | some title => exact hnode.title title htitle
  | none =>
    rw [Option.none_or]
    cases hsole : (node.object?.bind ObjectShape.soleProperty?).map Prod.fst with
    | none =>
      refine ((hparent.append ?_).append_number _).isHint
      exact List.all_eq_true.mp (by decide)
    | some key =>
      obtain ⟨property, hproperty, rfl⟩ := Option.map_eq_some_iff.mp hsole
      obtain ⟨shape, hshape, hproperty⟩ := Option.bind_eq_some_iff.mp hproperty
      refine hnode.property shape hshape property ?_
      rw [SchemaNode.soleProperty?_eq_some_iff.mp hproperty]
      exact List.mem_singleton_self _

theorem isHint_of_soleScalars? {alternatives : List SchemaNode}
    (hnodes : ∀ node ∈ alternatives, node.NamedBy (IsHint digits))
    {members : List (String × ScalarKind)} (h : soleScalars? alternatives = some members) :
    ∀ member ∈ members, IsHint digits member.1 := by
  rintro ⟨key, kind⟩ hmember
  unfold soleScalars? at h
  split at h
  · cases h
  · obtain ⟨node, hnode, hsole⟩ := (mem_mapM_iff h).mp hmember
    obtain ⟨info, shape, info', rfl, -, -, -, hproperties, -⟩ :=
      SchemaNode.soleScalar?_eq_some_iff.mp hsole
    refine (hnodes _ hnode).property shape rfl (key, .mk info' (.scalar kind)) ?_
    rw [hproperties]
    exact List.mem_singleton_self _

/-! ## Declarations -/

theorem declareEnum_named (hsite : NamedAround digits site) {hint? : Option String}
    (hhint : ∀ hint ∈ hint?, IsHint digits hint) {info : SchemaInfo}
    (htitle : ∀ title ∈ info.title?, IsHint digits title) {content : EnumContent}
    {placement : EnumPlacement} (hc : c.AllNamed (IsTypeName digits)) :
    Outcome (declareEnum s hint? info content site placement) c
      (fun _ c' => c'.AllNamed (IsTypeName digits)) fun _ => True := by
  refine declareEnum_outcome trivial ?_ ?_ ?_
  · exact fun name owner hname _ _ => hc.nest _ (isTypeName_of_hintedName? hhint htitle hname)
  · intro name found hname _ hfound _
    exact hc.addEnum (of_separateEnumName Identifier.isTypeName_rule
      (isTypeName_of_hintedName? hhint htitle hname) hsite.parentName hsite.feature hfound)
  · exact fun _ _ _ _ _ _ => hc

theorem declareAlias_named (hsite : NamedAround digits site) (hname : IsHint digits name)
    {target : TypeRef} (hc : c.AllNamed (IsTypeName digits)) :
    Outcome (declareAlias s name target parent site) c
      (fun _ c' => c'.AllNamed (IsTypeName digits)) fun _ => True :=
  declareAlias_outcome trivial (fun _ _ _ => hc)
    fun _ hoffers _ => hc.addAlias (hsite.of_offers hname hoffers)

theorem joinVariant_named (hsite : NamedAround digits site) (hname : IsHint digits name)
    {type : TypeRef} (hc : c.AllNamed (IsTypeName digits)) :
    Outcome (joinVariant s parent name type site) c
      (fun _ c' => c'.AllNamed (IsTypeName digits)) fun _ => True := by
  refine joinVariant_outcome (fun variant _ => hc.setMembers _ fun d => ?_)
    fun _ => declareAlias_named hsite hname hc
  obtain ⟨parents, h, -⟩ := d.addSealedParent_eq parent
  rw [h]
  exact ⟨rfl, rfl⟩

theorem aliasVariants_named {members : List (String × ScalarKind)}
    (hmembers : ∀ member ∈ members, IsHint digits member.1) (hsite : NamedAround digits site) :
    ∀ {index c}, c.AllNamed (IsTypeName digits) →
      Outcome (aliasVariants s parent site index members) c
        (fun _ c' => c'.AllNamed (IsTypeName digits)) fun _ => True := by
  induction members with
  | nil => exact fun hc => .pure hc
  | cons member rest ih =>
    intro index c hc
    obtain ⟨hmember, hrest⟩ := List.forall_mem_cons.mp hmembers
    exact aliasVariants_cons_outcome ((declareAlias_named (hsite.child _) hmember hc).imp
      fun _ _ hc' => ih hrest hc')

/-! ## Schemas -/

/-- Resolving the schema leaves all types called as types are. -/
structure NamesTypes (s : ResolutionSettings) (digits : Char → Prop) (node : SchemaNode) :
    Prop where
  ofType : ∀ {hint? site c}, NamedAround digits site → (∀ hint ∈ hint?, IsHint digits hint) →
    c.AllNamed (IsTypeName digits) →
    Outcome (typeAt s hint? node site) c (fun _ c' => c'.AllNamed (IsTypeName digits))
      fun _ => True
  ofClass : ∀ {name site c}, NamedAround digits site → IsHint digits name →
    c.AllNamed (IsTypeName digits) →
    Outcome (classAt s name node site) c
      (fun type c' => IsTypeName digits type.name ∧ c'.AllNamed (IsTypeName digits))
      fun _ => True

theorem fieldsAt_named {properties : List (String × SchemaNode)} {required : List String}
    (h : ∀ property ∈ properties, IsHint digits property.1 ∧ NamesTypes s digits property.2)
    (hsite : NamedAround digits site) :
    ∀ {c}, c.AllNamed (IsTypeName digits) →
      Outcome (fieldsAt s required properties site) c
        (fun _ c' => c'.AllNamed (IsTypeName digits)) fun _ => True := by
  induction properties with
  | nil => exact fun hc => .pure hc
  | cons property rest ih =>
    intro c hc
    obtain ⟨⟨hkey, hnode⟩, hrest⟩ := List.forall_mem_cons.mp h
    refine fieldsAt_cons_outcome ((hnode.ofType (hsite.child _) ?_ hc).imp
      fun _ _ hc' => ih hrest hc')
    rintro _ ⟨⟩
    exact hkey

theorem variantsFrom_named {alternatives : List SchemaNode}
    (h : ∀ node ∈ alternatives, node.NamedBy (IsHint digits) ∧ NamesTypes s digits node)
    (hsite : NamedAround digits site) (hparent : IsTypeName digits parent.name) :
    ∀ index {c}, c.AllNamed (IsTypeName digits) →
      Outcome (variantsFrom s parent alternatives index site) c
        (fun _ c' => c'.AllNamed (IsTypeName digits)) fun _ => True := by
  induction alternatives with
  | nil =>
    intro index c hc
    rw [variantsFrom]
    exact .pure hc
  | cons node rest ih =>
    intro index c hc
    obtain ⟨⟨hnamed, hnode⟩, hrest⟩ := List.forall_mem_cons.mp h
    have hname := isHint_variantName hnamed hparent index
    refine variantsFrom_cons_outcome (R := fun _ c' => c'.AllNamed (IsTypeName digits)) ?_ ?_ ?_
    · exact fun _ => (hnode.ofClass (hsite.child _) hname hc).imp fun _ _ h => h.2
    · refine fun _ => hnode.ofType (hsite.child _) ?_ hc
      rintro _ ⟨⟩
      exact hname
    · exact fun type c₁ hc₁ => (joinVariant_named (hsite.child _) hname hc₁).imp
        fun _ _ hc₂ => ih hrest (index + 1) hc₂

theorem sealedVariants_named {alternatives : List SchemaNode}
    (h : ∀ node ∈ alternatives, node.NamedBy (IsHint digits) ∧ NamesTypes s digits node)
    (hsite : NamedAround digits site) (hparent : IsTypeName digits parent.name)
    (hc : c.AllNamed (IsTypeName digits)) :
    Outcome (sealedVariants s alternatives parent site) c
      (fun _ c' => c'.AllNamed (IsTypeName digits)) fun _ => True := by
  unfold sealedVariants
  split
  · rename_i hsole
    exact aliasVariants_named (isHint_of_soleScalars? (fun node hmem => (h node hmem).1) hsole)
      hsite hc
  · exact variantsFrom_named h hsite hparent 0 hc

theorem classOf_named {info : SchemaInfo} {shape : ObjectSchema}
    (hproperties : ∀ property ∈ shape.properties,
      IsHint digits property.1 ∧ NamesTypes s digits property.2)
    (halternatives : ∀ alternatives, shape.oneOf? = some alternatives →
      ∀ node ∈ alternatives, node.NamedBy (IsHint digits) ∧ NamesTypes s digits node)
    (hvalues : ∀ values, shape.mapValues? = some values → NamesTypes s digits values.schema)
    (hsite : NamedAround digits site) (hname : IsHint digits name)
    (hc : c.AllNamed (IsTypeName digits)) :
    Outcome (classOf s name info shape (partsOf s shape) site) c
      (fun type c' => IsTypeName digits type.name ∧ c'.AllNamed (IsTypeName digits))
      fun _ => True := by
  -- The class is declared under its name, and what stands inside it is resolved.
  have hframe (kind : ClassKind) (type : TypeName) (hoffers : Offers s site name type) :
      IsTypeName digits type.name ∧ NamedAround digits (site.inside type) ∧
        (c.addClass (classFrame s info shape site kind type)).AllNamed (IsTypeName digits) := by
    have htype := hsite.of_offers hname hoffers
    refine ⟨htype, hsite.inside htype, hc.addClass fun name hmem => ?_⟩
    obtain rfl : name = type.name := List.mem_singleton.mp hmem
    exact htype
  refine classOf_outcome trivial ?_ ?_ ?_ ?_
  · exact fun type _ hoffers _ => ⟨hsite.of_offers hname hoffers, hc⟩
  · intro type alternatives _ honeOf hoffers _
    obtain ⟨htype, hinside, hc₁⟩ := hframe .sealed type hoffers
    refine (sealedVariants_named (halternatives alternatives honeOf) (hinside.child _) htype
      hc₁).imp fun variants c' hc' => ⟨htype, hc'.setMembers _ fun _ => ⟨rfl, rfl⟩⟩
  · intro type values _ _ hmapValues hoffers _
    obtain ⟨htype, hinside, hc₁⟩ := hframe .mapWrapper type hoffers
    refine ((hvalues values hmapValues).ofType (hinside.child _) ?_ hc₁).imp
      fun value c' hc' => ⟨htype, hc'.setMembers _ fun _ => ⟨rfl, rfl⟩⟩
    rintro _ ⟨⟩
    exact (htype.append (List.all_eq_true.mp (by decide))).isHint
  · intro type _ _ _ hoffers _
    obtain ⟨htype, hinside, hc₁⟩ := hframe .plain type hoffers
    exact (fieldsAt_named hproperties hinside hc₁).imp
      fun fields c' hc' => ⟨htype, hc'.setMembers _ fun _ => ⟨rfl, rfl⟩⟩

theorem namesTypes (s : ResolutionSettings) (digits : Char → Prop) (node : SchemaNode) :
    node.NamedBy (IsHint digits) → NamesTypes s digits node := by
  induction node using SchemaNode.byChildren with
  | scalar info kind =>
    intro hnode
    refine ⟨fun hsite hhint hc => ?_,
      fun _ _ _ => classAt_outcome_of_not_object rfl trivial⟩
    exact typeAt_scalar_outcome trivial (fun _ => hc)
      fun _ _ _ _ => declareEnum_named hsite hhint hnode.title hc
  | null info =>
    exact fun _ => ⟨fun _ _ hc => typeAt_null_outcome trivial hc,
      fun _ _ _ => classAt_outcome_of_not_object rfl trivial⟩
  | array info items ih =>
    intro hnode
    have hitems := hnode.child items (SchemaNode.mem_children_array.mpr rfl)
    exact ⟨fun hsite hhint hc => typeAt_array_outcome trivial
        ((ih hitems).ofType (hsite.child _) (isHint_of_itemHint? hhint hitems.title) hc),
      fun _ _ _ => classAt_outcome_of_not_object rfl trivial⟩
  | object info shape hproperties halternatives hvalues =>
    intro hnode
    have hproperties' : ∀ property ∈ shape.properties,
        IsHint digits property.1 ∧ NamesTypes s digits property.2 := by
      intro property hmem
      have hnamed := hnode.child property.2 (SchemaNode.mem_children_of_property hmem)
      exact ⟨hnode.property shape rfl property hmem, hproperties property hmem hnamed⟩
    have halternatives' : ∀ alternatives, shape.oneOf? = some alternatives →
        ∀ node ∈ alternatives, node.NamedBy (IsHint digits) ∧ NamesTypes s digits node := by
      intro alternatives honeOf node hmem
      have hnamed := hnode.child node (SchemaNode.mem_children_of_alternative honeOf hmem)
      exact ⟨hnamed, halternatives alternatives honeOf node hmem hnamed⟩
    have hvalues' : ∀ values, shape.mapValues? = some values →
        values.schema.NamedBy (IsHint digits) ∧ NamesTypes s digits values.schema := by
      intro values hmap
      have hnamed := hnode.child values.schema (SchemaNode.mem_children_of_mapValues hmap)
      exact ⟨hnamed, hvalues values hmap hnamed⟩
    have hclass {name : String} {site : Site} {c : Catalog} (hsite : NamedAround digits site)
        (hname : IsHint digits name) (hc : c.AllNamed (IsTypeName digits)) :
        Outcome (classOf s name info shape (partsOf s shape) site) c
          (fun type c' => IsTypeName digits type.name ∧ c'.AllNamed (IsTypeName digits))
          fun _ => True :=
      classOf_named hproperties' halternatives' (fun values hmap => (hvalues' values hmap).2)
        hsite hname hc
    constructor
    · intro hint? site c hsite hhint hc
      refine typeAt_object_outcome trivial ?_ ?_ ?_
      · exact fun _ _ _ _ => declareEnum_named hsite hhint hnode.title hc
      · intro values _ _ hmap
        obtain ⟨hnamed, hnames⟩ := hvalues' values hmap
        exact hnames.ofType (hsite.child _) (isHint_of_itemHint? hhint hnamed.title) hc
      · intro name _ _ hname
        have htype := isTypeName_of_hintedName? hhint hnode.title hname
        exact (hclass hsite htype.isHint hc).imp fun _ _ h => h.2
    · exact fun hsite hname hc => classAt_object_outcome trivial (hclass hsite hname hc)

end Resolution

end ThingTypes
