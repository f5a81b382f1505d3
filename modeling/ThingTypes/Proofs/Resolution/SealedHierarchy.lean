import ThingTypes.Proofs.Resolution.DigestedTexts

/-
  Sealed classes and their alternatives. An alternative that is a class knows every sealed class it
  belongs to. An alias has room for one only: it is shared by its target, and keeps the sealed class
  that declared it first, which is one of those it belongs to (`Hierarchy.origin`).

  While a sealed class gathers its alternatives, aliases with it as their parent exist before it
  lists them. The invariant leaves out the classes that are underway.
-/

namespace ThingTypes

namespace Catalog

variable {digest : Digest} {c c' : Catalog} {parent : TypeName} {underway : List TypeName}

/-- Growth that is not for a sealed class gives it no aliases. -/
theorem Grows.alias_of_parent {owner? sealed? : Option TypeName}
    (h : Grows digest owner? sealed? c c') (hsealed : sealed? ≠ some parent)
    (hparent : c.classes.class? parent.key ≠ none) (hc : c.Consistent) {k : TypeKey}
    {a : AliasDecl} (ha : c'.classes.alias? k = some a) (hap : a.sealedParent? = some parent) :
    c.classes.alias? k = some a := by
  induction h with
  | refl c => exact ha
  | trans h _ ih ih' =>
    have hkeeps := h.keeps hc
    obtain ⟨d, hd⟩ := Option.ne_none_iff_exists'.mp hparent
    obtain ⟨d', hd', _⟩ := hkeeps.classes hd
    exact ih hsealed hparent hc (ih' hsealed (by simp [hd']) (h.consistent hc) ha)
  | @newClass _ _ c c' type node kind role f howner hfree h hf ih =>
    have hne : type ≠ parent := by
      rintro rfl
      exact hparent (hc.class?_of_free hfree.1)
    refine ih (by simpa using hne) ?_ (hc.addClass hfree) ha
    rw [class?_addClass]
    split
    · simp
    · exact hparent
  | @newAlias _ parent' c a' ha' _ _ =>
    rw [alias?_addAlias] at ha
    split at ha
    · cases ha
      exact absurd (ha'.symm.trans hap) hsealed
    · exact ha
  | join => exact ha
  | newEnum => exact ha
  | nest => exact ha

/-! ## The invariant -/

/-- The alternative belongs to the sealed class: as a class that knows it, or as an alias. -/
def Joined (c : Catalog) (parent : TypeName) : TypeRef → Prop
  | .classType variant => ∃ d, c.classes.class? variant.key = some d ∧ parent ∈ d.sealedParents
  | .aliasType variant => ∃ a, c.classes.alias? variant.key = some a ∧ a.typeName = variant
  | _ => False

theorem Joined.kept (hkeeps : c.Keeps c') {variant : TypeRef} (h : c.Joined parent variant) :
    c'.Joined parent variant := by
  cases variant with
  | classType variant =>
    obtain ⟨d, hd, hparent⟩ := h
    obtain ⟨d', hd', _, _, rfl, hparents⟩ := hkeeps.classes hd
    exact ⟨_, hd', hparents parent hparent⟩
  | aliasType variant =>
    obtain ⟨a, ha, hname⟩ := h
    exact ⟨a, hkeeps.aliases ha, hname⟩
  | _ => exact h

theorem Joined.modifyClass {key : TypeKey} {f : ClassDecl → ClassDecl}
    (hf : ClassDecl.SetsMembers f) {variant : TypeRef} (h : c.Joined parent variant) :
    (c.modifyClass key f).Joined parent variant := by
  cases variant with
  | classType variant =>
    obtain ⟨d, hd, hparent⟩ := h
    refine ⟨_, by rw [class?_modifyClass, hd, Option.map_some], ?_⟩
    split
    · rw [hf.sealedParents_eq]
      exact hparent
    · exact hparent
  | _ => exact h

/-- Sealed classes and their alternatives belong together, those underway left out. -/
structure Hierarchy (underway : List TypeName) (c : Catalog) : Prop where
  joined : ∀ {k d}, c.classes.class? k = some d → d.kind = .sealed → d.typeName ∉ underway →
    ∀ variant ∈ d.variants, c.Joined d.typeName variant
  /-- An alias comes from a sealed class that it is an alternative of. -/
  origin : ∀ {k a}, c.classes.alias? k = some a → ∃ d, a.sealedParent? = some d.typeName ∧
    c.classes.class? d.key = some d ∧ d.kind = .sealed ∧
    (d.typeName ∉ underway → .aliasType a.typeName ∈ d.variants)

theorem hierarchy_empty : Hierarchy [] {} where
  joined h := by cases h
  origin h := by cases h

namespace Hierarchy

/-- Growth of single classes, and of enums, leaves the hierarchy as it is. -/
theorem of_keeps (hh : Hierarchy underway c) (hkeeps : c.Keeps c')
    (hclass : ∀ {k d'}, c'.classes.class? k = some d' →
      ∃ d, c.classes.class? k = some d ∧ d.GrowsTo d')
    (halias : ∀ {k a}, c'.classes.alias? k = some a → c.classes.alias? k = some a) :
    Hierarchy underway c' where
  joined hd' hsealed hunderway variant hmem := by
    obtain ⟨d, hd, _, _, rfl, _⟩ := hclass hd'
    exact (hh.joined hd hsealed hunderway variant hmem).kept hkeeps
  origin ha := by
    obtain ⟨d, hparent, hd, hsealed, hmem⟩ := hh.origin (halias ha)
    obtain ⟨d', hd', hgrow⟩ := hkeeps.classes hd
    refine ⟨d', ?_, ?_, hgrow.kind_eq.trans hsealed, ?_⟩
    · rw [hparent, hgrow.typeName_eq]
    · rw [hgrow.key_eq, hd']
    · rw [hgrow.typeName_eq, hgrow.variants_eq]
      exact hmem

theorem addEnum (hh : Hierarchy underway c) {e : EnumDecl}
    (hkeeps : c.Keeps (c.addEnum e)) : Hierarchy underway (c.addEnum e) :=
  hh.of_keeps hkeeps (fun {_ d} h => ⟨d, h, .refl d⟩) fun h => h

theorem modifyClass (hh : Hierarchy underway c) {key : TypeKey} {f : ClassDecl → ClassDecl}
    (hf : ∀ d : ClassDecl, d.GrowsTo (f d)) : Hierarchy underway (c.modifyClass key f) := by
  refine hh.of_keeps (.modifyClass fun d _ => hf d) (fun {k d'} h => ?_) fun h => h
  rw [class?_modifyClass, Option.map_eq_some_iff] at h
  obtain ⟨d, hd, rfl⟩ := h
  refine ⟨d, hd, ?_⟩
  split
  · exact hf d
  · exact .refl d

theorem nest (hh : Hierarchy underway c) (owner : TypeKey) (e : EnumDecl) :
    Hierarchy underway (c.nest owner e) := by
  have h : Hierarchy underway (c.modifyClass owner (·.nestEnum e)) :=
    hh.modifyClass fun d => d.growsTo_nestEnum e
  exact ⟨h.joined, h.origin⟩

/-- A class that comes without members is underway. -/
theorem addClass (hh : Hierarchy underway c) (hc : c.Consistent) {d : ClassDecl}
    (hfree : c.IsFree d.key) : Hierarchy (d.typeName :: underway) (c.addClass d) where
  joined {k d'} hd' hsealed hunderway variant hmem := by
    rw [class?_addClass] at hd'
    split at hd'
    · cases hd'
      exact absurd List.mem_cons_self hunderway
    · have hold := fun h => hunderway (List.mem_cons_of_mem _ h)
      exact (hh.joined hd' hsealed hold variant hmem).kept (.addClass (hc.class?_of_free hfree.1))
  origin {k a} ha := by
    obtain ⟨d', hparent, hd', hsealed, hmem⟩ := hh.origin ha
    have hne : d'.key ≠ d.key := by
      intro hkey
      rw [hkey, hc.class?_of_free hfree.1] at hd'
      cases hd'
    refine ⟨d', hparent, ?_, hsealed, fun hunderway => hmem fun h =>
      hunderway (List.mem_cons_of_mem _ h)⟩
    rw [class?_addClass, if_neg hne, hd']

/-- A sealed class that is underway may get an alias. -/
theorem addAlias (hh : Hierarchy underway c) (hc : c.Consistent) {a : AliasDecl} {d : ClassDecl}
    (hfree : c.IsFree a.key) (hparent : a.sealedParent? = some d.typeName)
    (hd : c.classes.class? d.key = some d) (hsealed : d.kind = .sealed)
    (hunderway : d.typeName ∈ underway) : Hierarchy underway (c.addAlias a) where
  joined {k d'} hd' hsealed' hunderway' variant hmem := by
    have hjoined := hh.joined hd' hsealed' hunderway' variant hmem
    cases variant with
    | classType variant => exact hjoined
    | aliasType variant =>
      obtain ⟨a', ha', hname⟩ := hjoined
      have hne : variant.key ≠ a.key := by
        intro hkey
        rw [hkey, hc.alias?_of_free hfree.1] at ha'
        cases ha'
      exact ⟨a', by rw [alias?_addAlias, if_neg hne, ha'], hname⟩
    | _ => exact hjoined
  origin {k a'} ha' := by
    rw [alias?_addAlias] at ha'
    split at ha'
    · cases ha'
      exact ⟨d, hparent, hd, hsealed, fun h => absurd hunderway h⟩
    · exact hh.origin ha'

/-- A class that gets its members is no longer underway. If it is sealed, its alternatives have
joined it, and there are no aliases of it besides. -/
theorem finish (hh : Hierarchy (parent :: underway) c) (hc : c.Consistent)
    {f : ClassDecl → ClassDecl} (hf : ClassDecl.SetsMembers f) {d : ClassDecl}
    (hd : c.classes.class? parent.key = some d) (hname : d.typeName = parent)
    (hkind : (f d).kind = .sealed ↔ d.kind = .sealed)
    (hvariants : d.kind = .sealed → (∀ variant ∈ (f d).variants, c.Joined parent variant) ∧
      ∀ k a, c.classes.alias? k = some a → a.sealedParent? = some parent →
        .aliasType a.typeName ∈ (f d).variants) :
    Hierarchy underway (c.modifyClass parent.key f) where
  joined {k d'} hd' hsealed hunderway variant hmem := by
    rw [class?_modifyClass, Option.map_eq_some_iff] at hd'
    obtain ⟨old, hold, hd'⟩ := hd'
    by_cases hk : k = parent.key
    · rw [if_pos hk] at hd'
      rw [hk, hd, Option.some.injEq] at hold
      subst hold hd'
      rw [hf.typeName_eq, hname]
      exact ((hvariants (hkind.mp hsealed)).1 variant hmem).modifyClass hf
    · rw [if_neg hk] at hd'
      subst hd'
      refine (hh.joined hold hsealed ?_ variant hmem).modifyClass hf
      rw [List.mem_cons, not_or]
      refine ⟨?_, hunderway⟩
      rintro rfl
      exact hk (hc.class_held hold).1.symm
  origin {k a} ha := by
    obtain ⟨old, hparent, hold, hsealed, hmem⟩ := hh.origin ha
    by_cases hk : old.key = parent.key
    · rw [hk, hd, Option.some.injEq] at hold
      subst hold
      refine ⟨f d, ?_, ?_, hkind.mpr hsealed, fun _ => ?_⟩
      · rw [hparent, hf.typeName_eq]
      · rw [hf.key_eq, hk, class?_modifyClass, hd, Option.map_some, if_pos rfl]
      · exact (hvariants hsealed).2 k a ha (hname ▸ hparent)
    · refine ⟨old, hparent, ?_, hsealed, fun h => hmem ?_⟩
      · rw [class?_modifyClass, hold, Option.map_some, if_neg hk]
      · rw [List.mem_cons, not_or]
        refine ⟨?_, h⟩
        rintro rfl
        exact hk rfl

end Hierarchy

/-! ## Gathering alternatives -/

/-- A sealed class of that name has been declared. -/
def HasSealed (c : Catalog) (parent : TypeName) : Prop :=
  ∃ d, c.classes.class? parent.key = some d ∧ d.typeName = parent ∧ d.kind = .sealed

theorem HasSealed.kept (hkeeps : c.Keeps c') (h : c.HasSealed parent) : c'.HasSealed parent := by
  obtain ⟨d, hd, hname, hsealed⟩ := h
  obtain ⟨d', hd', hgrow⟩ := hkeeps.classes hd
  exact ⟨d', hd', hgrow.typeName_eq.trans hname, hgrow.kind_eq.trans hsealed⟩

/-- On the way from `c` to `c'` a sealed class has got the alternatives, and no other aliases. -/
structure Gathers (underway : List TypeName) (parent : TypeName) (c : Catalog)
    (variants : List TypeRef) (c' : Catalog) : Prop where
  hierarchy : Hierarchy underway c'
  joined : ∀ variant ∈ variants, c'.Joined parent variant
  aliases : ∀ {k a}, c'.classes.alias? k = some a → a.sealedParent? = some parent →
    c.classes.alias? k = some a ∨ .aliasType a.typeName ∈ variants

theorem Gathers.cons {c'' : Catalog} {variant : TypeRef} {variants : List TypeRef}
    (h : Gathers underway parent c [variant] c') (hkeeps : c'.Keeps c'')
    (h' : Gathers underway parent c' variants c'') :
    Gathers underway parent c (variant :: variants) c'' where
  hierarchy := h'.hierarchy
  joined variant' hmem := by
    rcases List.mem_cons.mp hmem with rfl | hmem
    · exact (h.joined variant' List.mem_cons_self).kept hkeeps
    · exact h'.joined variant' hmem
  aliases ha hparent := by
    rcases h'.aliases ha hparent with ha | hmem
    · rcases h.aliases ha hparent with ha | hmem
      · exact .inl ha
      · rw [List.mem_singleton.mp hmem]
        exact .inr List.mem_cons_self
    · exact .inr (List.mem_cons_of_mem _ hmem)

end Catalog

namespace Resolution

open Catalog

variable {s : ResolutionSettings} {c : Catalog} {site : Site} {underway : List TypeName}
  {parent : TypeName} {name : String}

/-- If the type is a class, it has been declared. -/
def Known (c : Catalog) (type : TypeRef) : Prop :=
  ∀ name, type = .classType name → c.classes.class? name.key ≠ none

theorem declareAlias_gathers (hdigest : Function.Injective s.digest)
    (hc : c.WellFormed s.digest) (hh : Hierarchy underway c) (hparent : c.HasSealed parent)
    (hunderway : parent ∈ underway) (target : TypeRef) :
    Outcome (declareAlias s name target parent site) c
      (fun type c' => Gathers underway parent c [.aliasType type] c') fun _ => True := by
  refine declareAlias_outcome trivial ?_ ?_
  · intro type ⟨htop, _, _⟩ htable
    obtain ⟨a, ha, _⟩ := hc.exists_alias hdigest htable
    have hname := hc.alias_named htop ha
    exact ⟨hh, fun variant hmem => List.mem_singleton.mp hmem ▸ ⟨a, ha, hname⟩, fun ha _ => .inl ha⟩
  · intro type ⟨htop, _, _⟩ hfree
    obtain ⟨d, hd, rfl, hsealed⟩ := hparent
    refine ⟨hh.addAlias hc.toConsistent hfree rfl hd hsealed hunderway, fun variant hmem => ?_,
      fun ha _ => ?_⟩
    · rw [List.mem_singleton.mp hmem]
      refine ⟨_, alias?_addAlias_self _ _, ?_⟩
      exact htop.typeName_eq
    · rw [alias?_addAlias] at ha
      split at ha
      · cases ha
        exact .inr (List.mem_singleton.mpr (congrArg TypeRef.aliasType htop.typeName_eq))
      · exact .inl ha

theorem joinVariant_gathers (hdigest : Function.Injective s.digest)
    (hc : c.WellFormed s.digest) (hh : Hierarchy underway c) (hparent : c.HasSealed parent)
    (hunderway : parent ∈ underway) {type : TypeRef} (hknown : Known c type) :
    Outcome (joinVariant s parent name type site) c
      (fun variant c' => Gathers underway parent c [variant] c') fun _ => True := by
  refine joinVariant_outcome ?_ fun _ =>
    declareAlias_gathers hdigest hc hh hparent hunderway type
  intro variant htype
  obtain ⟨d, hd⟩ := Option.ne_none_iff_exists'.mp (hknown variant htype)
  refine ⟨hh.modifyClass fun d => d.growsTo_addSealedParent parent, fun variant' hmem => ?_,
    fun ha _ => .inl ha⟩
  rw [List.mem_singleton.mp hmem]
  refine ⟨d.addSealedParent parent, ?_, (d.mem_sealedParents_addSealedParent _ _).mpr (.inr rfl)⟩
  rw [class?_modifyClass, hd, Option.map_some, if_pos rfl]

theorem aliasVariants_gathers (hdigest : Function.Injective s.digest)
    (hunderway : parent ∈ underway) (members : List (String × ScalarKind)) :
    ∀ index c, c.WellFormed s.digest → Hierarchy underway c → c.HasSealed parent →
      Outcome (aliasVariants s parent site index members) c
        (fun variants c' => Gathers underway parent c variants c') fun _ => True := by
  induction members with
  | nil => exact fun _ c _ hh _ => .pure ⟨hh, nofun, fun ha _ => .inl ha⟩
  | cons member rest ih =>
    intro index c hc hh hparent
    refine aliasVariants_cons_outcome (((declareAlias_growing _ _ parent).outcome
      (declareAlias_gathers hdigest hc hh hparent hunderway _)).imp ?_)
    rintro type c' ⟨hgrows, hgathers⟩
    have hkeeps := hgrows.keeps hc.toConsistent
    refine ((aliasVariants_growing parent rest (index + 1)).outcome
      (ih _ c' (hgrows.wellFormed hc) hgathers.hierarchy (hparent.kept hkeeps))).imp ?_
    rintro variants c'' ⟨hgrows', hgathers'⟩
    exact hgathers.cons (hgrows'.keeps (hgrows.wellFormed hc).toConsistent) hgathers'

/-! ## Schemas -/

/-- Resolving the schema leaves the hierarchy whole, whatever is underway. -/
structure KeepsHierarchy (s : ResolutionSettings) (node : SchemaNode) : Prop where
  ofType : ∀ hint? site underway c, c.WellFormed s.digest → Hierarchy underway c →
    Outcome (typeAt s hint? node site) c
      (fun type c' => Hierarchy underway c' ∧ Known c' type) fun _ => True
  ofClass : ∀ name site underway c, c.WellFormed s.digest → Hierarchy underway c →
    Outcome (classAt s name node site) c
      (fun type c' => Hierarchy underway c' ∧ Known c' (.classType type)) fun _ => True

theorem variantsFrom_gathers (hdigest : Function.Injective s.digest)
    (hunderway : parent ∈ underway) {alternatives : List SchemaNode}
    (h : ∀ node ∈ alternatives, KeepsHierarchy s node) :
    ∀ index c, c.WellFormed s.digest → Hierarchy underway c → c.HasSealed parent →
      Outcome (variantsFrom s parent alternatives index site) c
        (fun variants c' => Gathers underway parent c variants c') fun _ => True := by
  induction alternatives with
  | nil =>
    intro _ c _ hh _
    rw [variantsFrom]
    exact .pure ⟨hh, fun _ hmem => absurd hmem List.not_mem_nil, fun ha _ => .inl ha⟩
  | cons node rest ih =>
    intro index c hc hh hparent
    have hnode := h node List.mem_cons_self
    refine variantsFrom_cons_outcome (R := fun type c' =>
      Grows s.digest site.context.parent? none c c' ∧ Hierarchy underway c' ∧ Known c' type)
      ?_ ?_ ?_
    · intro _
      exact (classAt_growing _ node _).of_unowned.outcome (hnode.ofClass _ _ underway c hc hh)
    · intro _
      exact (typeAt_growing _ node (site.child _)).outcome (hnode.ofType _ _ underway c hc hh)
    · rintro type c₁ ⟨hgrows, hh₁, hknown⟩
      have hc₁ := hgrows.wellFormed hc
      have hparent₁ := hparent.kept (hgrows.keeps hc.toConsistent)
      refine ((joinVariant_growing parent _ type).outcome
        (joinVariant_gathers hdigest hc₁ hh₁ hparent₁ hunderway hknown)).imp ?_
      rintro variant c₂ ⟨hgrows', hgathers⟩
      have hc₂ := hgrows'.wellFormed hc₁
      have hgathers₂ : Gathers underway parent c [variant] c₂ := by
        refine ⟨hgathers.hierarchy, hgathers.joined, fun ha hap => ?_⟩
        refine (hgathers.aliases ha hap).imp_left fun ha => ?_
        obtain ⟨d, hd, _⟩ := hparent
        exact hgrows.alias_of_parent (Option.some_ne_none parent).symm (by simp [hd])
          hc.toConsistent ha hap
      have hrest := ih (fun node hmem => h node (List.mem_cons_of_mem _ hmem)) (index + 1) c₂ hc₂
        hgathers.hierarchy (hparent₁.kept (hgrows'.keeps hc₁.toConsistent))
      refine ((variantsFrom_growing parent rest (index + 1)).outcome hrest).imp ?_
      rintro variants c₃ ⟨hgrows'', hgathers'⟩
      exact hgathers₂.cons (hgrows''.keeps hc₂.toConsistent) hgathers'

theorem fieldsAt_keepsHierarchy {properties : List (String × SchemaNode)} {required : List String}
    (h : ∀ property ∈ properties, KeepsHierarchy s property.2) :
    ∀ c, c.WellFormed s.digest → Hierarchy underway c →
      Outcome (fieldsAt s required properties site) c (fun _ c' => Hierarchy underway c')
        fun _ => True := by
  induction properties with
  | nil => exact fun c _ hh => .pure hh
  | cons property rest ih =>
    intro c hc hh
    have hproperty := (h property List.mem_cons_self).ofType (some property.1)
      (site.child property.1) underway c hc hh
    refine fieldsAt_cons_outcome (((typeAt_growing _ _ _).outcome hproperty).imp ?_)
    rintro type c' ⟨hgrows, hh', _⟩
    exact ih (fun property hmem => h property (List.mem_cons_of_mem _ hmem)) c'
      (hgrows.wellFormed hc) hh'

/-- A class with its members is complete. What its members have to do with the hierarchy matters for
a sealed class only. -/
theorem completes {type : TypeName} {frame : ClassDecl} {c' : Catalog} {f : ClassDecl → ClassDecl}
    (hframe : frame.typeName = type) (hkeeps : (c.addClass frame).Keeps c') (hc' : c'.Consistent)
    (hh : Hierarchy (type :: underway) c') (hf : ClassDecl.SetsMembers f)
    (hkind : ∀ d, d.kind = frame.kind → ((f d).kind = .sealed ↔ frame.kind = .sealed))
    (hvariants : frame.kind = .sealed → ∀ d,
      (∀ variant ∈ (f d).variants, c'.Joined type variant) ∧
      ∀ k a, c'.classes.alias? k = some a → a.sealedParent? = some type →
        .aliasType a.typeName ∈ (f d).variants) :
    Hierarchy underway (c'.modifyClass type.key f) ∧
      Known (c'.modifyClass type.key f) (.classType type) := by
  subst hframe
  have hadded : (c.addClass frame).classes.class? frame.typeName.key = some frame :=
    class?_addClass_self c frame
  obtain ⟨d, hd, hgrow⟩ := hkeeps.classes hadded
  constructor
  · refine hh.finish hc' hf hd hgrow.typeName_eq ?_ fun h => hvariants (hgrow.kind_eq ▸ h) d
    rw [hkind d hgrow.kind_eq, hgrow.kind_eq]
  · rintro _ ⟨⟩
    rw [class?_modifyClass, hd]
    simp

theorem classOf_keepsHierarchy (hdigest : Function.Injective s.digest) {info : SchemaInfo}
    {shape : ObjectSchema}
    (hproperties : ∀ property ∈ shape.properties, KeepsHierarchy s property.2)
    (halternatives : ∀ alternatives, shape.oneOf? = some alternatives →
      ∀ node ∈ alternatives, KeepsHierarchy s node)
    (hvalues : ∀ values, shape.mapValues? = some values → KeepsHierarchy s values.schema)
    (hc : c.WellFormed s.digest) (hh : Hierarchy underway c) :
    Outcome (classOf s name info shape (partsOf s shape) site) c
      (fun type c' => Hierarchy underway c' ∧ Known c' (.classType type)) fun _ => True := by
  -- What holds once the class has its name.
  have hframe (kind : ClassKind) (type : TypeName) (htop : type.IsTopLevel site.package)
      (hfree : c.IsFree type.key) :
      (classFrame s info shape site kind type).typeName = type ∧
        (c.addClass (classFrame s info shape site kind type)).WellFormed s.digest ∧
        Hierarchy (type :: underway) (c.addClass (classFrame s info shape site kind type)) := by
    have hname : (classFrame s info shape site kind type).typeName = type :=
      typeName_classFrame htop
    refine ⟨hname, hc.addClassFrame htop.2 hfree, ?_⟩
    have h := hh.addClass hc.toConsistent (d := classFrame s info shape site kind type) hfree
    rwa [hname] at h
  refine classOf_outcome trivial ?_ ?_ ?_ ?_
  · intro type _ ⟨htop, _, _⟩ htable
    obtain ⟨d, hd, _⟩ := hc.exists_class hdigest htable
    refine ⟨hh, ?_⟩
    rintro _ ⟨⟩
    simp [hd]
  · intro type alternatives _ honeOf ⟨htop, _, _⟩ hfree
    obtain ⟨hname, hc₁, hh₁⟩ := hframe .sealed type htop hfree
    have hsealed : (c.addClass (classFrame s info shape site .sealed type)).HasSealed type :=
      ⟨_, class?_addClass_self _ _, hname, rfl⟩
    have hgathers : Outcome (sealedVariants s alternatives type ((site.inside type).child "oneOf"))
        (c.addClass (classFrame s info shape site .sealed type))
        (fun variants c' => Gathers (type :: underway) type
          (c.addClass (classFrame s info shape site .sealed type)) variants c') fun _ => True := by
      unfold sealedVariants
      split
      · exact aliasVariants_gathers hdigest List.mem_cons_self _ 0 _ hc₁ hh₁ hsealed
      · exact variantsFrom_gathers hdigest List.mem_cons_self (halternatives _ honeOf) 0 _ hc₁ hh₁
          hsealed
    refine ((sealedVariants_growing alternatives type ((site.inside type).child "oneOf")).outcome
      hgathers).imp ?_
    rintro variants c' ⟨hgrows, hgathers⟩
    refine completes hname (hgrows.keeps hc₁.toConsistent) (hgrows.wellFormed hc₁).toConsistent
      hgathers.hierarchy (fun d => ⟨d.kind, d.fields, variants, d.mapValue?, rfl⟩)
      (fun d hd => by rw [← hd]) fun _ d => ⟨hgathers.joined, fun k a ha hparent => ?_⟩
    rcases hgathers.aliases ha hparent with hold | hmem
    · obtain ⟨d', hparent', hd', _⟩ := hh.origin hold
      rw [hparent, Option.some.injEq] at hparent'
      have hkey : d'.key = type.key := by rw [hparent']; rfl
      rw [hkey, hc.class?_of_free hfree.1] at hd'
      cases hd'
    · exact hmem
  · intro type values _ _ hmapValues ⟨htop, _, _⟩ hfree
    obtain ⟨hname, hc₁, hh₁⟩ := hframe .mapWrapper type htop hfree
    refine ((typeAt_growing _ _ _).outcome
      ((hvalues values hmapValues).ofType _ _ _ _ hc₁ hh₁)).imp ?_
    rintro value c' ⟨hgrows, hh', _⟩
    exact completes hname (hgrows.keeps hc₁.toConsistent) (hgrows.wellFormed hc₁).toConsistent hh'
      (fun d => ⟨d.kind, d.fields, d.variants, some value, rfl⟩) (fun d hd => by rw [← hd]) nofun
  · intro type _ _ _ ⟨htop, _, _⟩ hfree
    obtain ⟨hname, hc₁, hh₁⟩ := hframe .plain type htop hfree
    refine ((fieldsAt_growing shape.required shape.properties).outcome
      (fieldsAt_keepsHierarchy hproperties _ hc₁ hh₁)).imp ?_
    rintro fields c' ⟨hgrows, hh'⟩
    refine completes hname (hgrows.keeps hc₁.toConsistent) (hgrows.wellFormed hc₁).toConsistent hh'
      (fun d => ⟨_, fields, d.variants, d.mapValue?, rfl⟩) (fun d _ => ?_) nofun
    unfold ClassDecl.withFields
    cases fields.isEmpty <;> simp [classFrame, ClassDecl.ofSchema]

/-- An enum touches no class and no alias, except for the enums that it nests. -/
theorem declareEnum_keepsHierarchy {hint? : Option String} {info : SchemaInfo}
    {content : EnumContent} {placement : EnumPlacement} (hc : c.Consistent)
    (hh : Hierarchy underway c) :
    Outcome (declareEnum s hint? info content site placement) c
      (fun _ c' => Hierarchy underway c') fun _ => True := by
  refine declareEnum_outcome trivial ?_ ?_ fun _ _ _ _ _ _ => hh
  · exact fun _ owner _ _ _ => hh.nest owner.key _
  · intro _ found _ _ hfound henum
    have hgrows : Grows s.digest none none c
        (c.addEnum (enumDecl found info content site.package none)) :=
      .newEnum rfl (separateEnumName_free hfound) henum
    exact hh.addEnum (hgrows.keeps hc)

theorem keepsHierarchy (hdigest : Function.Injective s.digest) (node : SchemaNode) :
    KeepsHierarchy s node := by
  induction node using SchemaNode.byChildren with
  | scalar info kind =>
    refine ⟨fun hint? site underway c hc hh => ?_,
      fun _ _ _ _ _ _ => classAt_outcome_of_not_object rfl trivial⟩
    refine typeAt_scalar_outcome trivial (fun _ => ⟨hh, nofun⟩) fun _ content _ _ => ?_
    exact (declareEnum_keepsHierarchy hc.toConsistent hh).imp fun _ _ h => ⟨h, nofun⟩
  | null info =>
    exact ⟨fun _ _ _ _ _ hh => typeAt_null_outcome trivial ⟨hh, nofun⟩,
      fun _ _ _ _ _ _ => classAt_outcome_of_not_object rfl trivial⟩
  | array info items ih =>
    refine ⟨fun hint? site underway c hc hh => ?_,
      fun _ _ _ _ _ _ => classAt_outcome_of_not_object rfl trivial⟩
    exact typeAt_array_outcome trivial ((ih.ofType _ _ underway c hc hh).imp
      fun _ _ h => ⟨h.1, nofun⟩)
  | object info shape hproperties halternatives hvalues =>
    constructor
    · intro hint? site underway c hc hh
      refine typeAt_object_outcome trivial ?_ ?_ ?_
      · intro _ content _ _
        exact (declareEnum_keepsHierarchy hc.toConsistent hh).imp fun _ _ h => ⟨h, nofun⟩
      · intro values _ _ hmapValues
        exact ((hvalues values hmapValues).ofType _ _ underway c hc hh).imp
          fun _ _ h => ⟨h.1, nofun⟩
      · exact fun _ _ _ _ => classOf_keepsHierarchy hdigest hproperties halternatives hvalues hc hh
    · exact fun _ _ _ c hc hh => classAt_object_outcome trivial
        (classOf_keepsHierarchy hdigest hproperties halternatives hvalues hc hh)

/-! ## Runs -/

theorem Call.act_keepsHierarchy (call : Call) (hdigest : Function.Injective call.settings.digest)
    (hc : c.WellFormed call.settings.digest) (hh : Hierarchy underway c) :
    Outcome call.act c (fun _ c' => Hierarchy underway c') fun _ => True := by
  unfold act
  split
  · exact ((keepsHierarchy hdigest call.node).ofType _ _ underway c hc hh).imp fun _ _ h => h.1
  · exact ((keepsHierarchy hdigest call.node).ofType _ _ underway c hc hh).imp fun _ _ h => h.1
  · exact .map (((keepsHierarchy hdigest call.node).ofClass _ _ underway c hc hh).imp
      fun _ _ h => h.1)
  · exact .map (resolveSeparateEnum_outcome trivial fun _ _ _ _ =>
      declareEnum_keepsHierarchy hc.toConsistent hh)

/-- In the catalog that calls have filled, each alternative of a sealed class belongs to it: a class
knows the sealed class as a parent, and an alias is there. The parent that an alias names is the
sealed class exactly as long as no alias is an alternative of two sealed classes. -/
theorem sealed_hierarchy_iff {digest : Digest} {calls : List Call}
    (hdigest : Set.InjOn digest {text | text ∈ digestedTexts digest calls})
    (hcalls : ∀ call ∈ calls, call.settings.digest = digest)
    {types : List TypeRef} {st : ResolutionState} (hrun : resolveAll calls {} = .ok types st) :
    (∀ key d, st.catalog.classes.class? key = some d → d.kind = .sealed →
      ∀ variant ∈ d.variants, st.catalog.Joined d.typeName variant) ∧
    ((∀ key d, st.catalog.classes.class? key = some d → d.kind = .sealed →
        ∀ type a, .aliasType type ∈ d.variants → st.catalog.classes.alias? type.key = some a →
          a.sealedParent? = some d.typeName) ↔
      ∀ key d key' d', st.catalog.classes.class? key = some d → d.kind = .sealed →
        st.catalog.classes.class? key' = some d' → d'.kind = .sealed →
        ∀ type, .aliasType type ∈ d.variants → .aliasType type ∈ d'.variants → d = d') := by
  obtain ⟨other, hother, hsame⟩ := exists_injective_resolveAll hcalls hdigest
  have hcalls' : ∀ call ∈ calls.map (·.withDigest other), call.settings.digest = other :=
    List.forall_mem_map.mpr fun _ _ => rfl
  have hout : Outcome (resolveAll (calls.map (·.withDigest other)))
      ({} : ResolutionState).catalog _ _ :=
    resolveAll_outcome (I := Hierarchy []) (R := fun _ _ _ => True) hcalls'
    (fun call hmem c hc hh => by
      have hcall := hcalls' call hmem
      exact (call.act_keepsHierarchy (hcall ▸ hother) (hcall ▸ hc) hh).imp
        fun _ _ h => ⟨h, trivial⟩) (fun _ h => h)
    (wellFormed_empty other) hierarchy_empty
  obtain ⟨hc, _, hh, _⟩ := hout.of_ok (hsame.trans hrun)
  have hjoined (key : TypeKey) (d : ClassDecl) (hd : st.catalog.classes.class? key = some d)
      (hsealed : d.kind = .sealed) := hh.joined hd hsealed (List.not_mem_nil)
  refine ⟨hjoined, fun h key d key' d' hd hsealed hd' hsealed' type hmem hmem' => ?_,
    fun h key d hd hsealed type a hmem ha => ?_⟩
  · obtain ⟨a, ha, _⟩ := hjoined key d hd hsealed _ hmem
    have hname := h key d hd hsealed type a hmem ha
    rw [h key' d' hd' hsealed' type a hmem' ha, Option.some.injEq] at hname
    have hkey : key' = key := by
      rw [← (hc.class_held hd').1, ← (hc.class_held hd).1]
      exact congrArg TypeName.key hname
    rw [hkey, hd, Option.some.injEq] at hd'
    exact hd'
  · obtain ⟨a', ha', hname⟩ := hjoined key d hd hsealed _ hmem
    rw [ha, Option.some.injEq] at ha'
    subst ha'
    obtain ⟨d', hparent, hd', hsealed', hmem'⟩ := hh.origin ha
    rw [hparent, h _ d' _ d hd' hsealed' hd hsealed type (hname ▸ hmem' List.not_mem_nil) hmem]

/-- Two sealed classes whose alternatives are aliases, and the first alternative the same. -/
def sharedAlternative : List Call :=
  let scalar (name : String) : SchemaNode := .ofProperties [(name, .mk {} (.scalar .integer))] []
  let sealedOver (title : String) (names : List String) : Call :=
    { settings := { naming := .compoundWhenTaken }
      request := .type
      node := .mk { title? := some title } (.object { oneOf? := some (names.map scalar) })
      package := "p"
      context := .root }
  [sealedOver "A" ["r", "g"], sealedOver "B" ["r", "b"]]

/-- The shared alternative is an alias of both sealed classes and names the first only. -/
theorem sealed_hierarchy_iff_shared : ∃ types st, resolveAll sharedAlternative {} = .ok types st ∧
    ¬ ∀ key d, st.catalog.classes.class? key = some d → d.kind = .sealed →
      ∀ type a, .aliasType type ∈ d.variants → st.catalog.classes.alias? type.key = some a →
        a.sealedParent? = some d.typeName := by
  let alternative : TypeRef := .aliasType { package := "p", name := "R" }
  have hrun : Set.InjOn Digest.sha256 {text | text ∈ digestedTexts .sha256 sharedAlternative} ∧
      (match resolveAll sharedAlternative {} with
        | .ok _ st => ["A", "B"].map fun name =>
          (st.catalog.classes.class? ⟨"p", name⟩).map fun d =>
            (d.name, d.kind, d.variants.contains alternative)
        | .error _ _ => []) =
        [some ("A", .sealed, true), some ("B", .sealed, true)] := by decide +kernel
  obtain ⟨hdigest, hrun⟩ := hrun
  cases h : resolveAll sharedAlternative {} with
  | error e st => simp [h] at hrun
  | ok types st =>
    refine ⟨types, st, rfl, fun hnames => ?_⟩
    simp only [h, List.map_cons, List.map_nil, List.cons.injEq, and_true,
      Option.map_eq_some_iff, Prod.mk.injEq, List.contains_iff_mem] at hrun
    obtain ⟨⟨a, ha, hname, hsealed, hmem⟩, b, hb, hname', hsealed', hmem'⟩ := hrun
    have hcalls : ∀ call ∈ sharedAlternative, call.settings.digest = .sha256 := by
      simp [sharedAlternative]
    have hsame := (sealed_hierarchy_iff hdigest hcalls h).2.mp hnames _ a _ b ha
      hsealed hb hsealed' _ hmem hmem'
    rw [hsame, hname'] at hname
    simp at hname

end Resolution

end ThingTypes
