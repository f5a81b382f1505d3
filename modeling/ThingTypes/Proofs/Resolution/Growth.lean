import ThingTypes.Proofs.Resolution.Parts
import ThingTypes.Proofs.Schema.Induction

/-
  What a resolution does to the catalog, whether it succeeds or fails. `Grows digest owner? sealed?`
  lists the ways in which a catalog changes: enums nest in the owner alone, and it is only for the
  sealed class that aliases are declared and classes joined. A class that is declared on the way is
  the owner of its own members, and gets them at the end.

  `typeAt_growing` and `classAt_growing` say that resolutions do nothing else. What every way of
  growing preserves is therefore preserved by every resolution.
-/

namespace ThingTypes

/-- Sets members of a class, and nothing that identifies it or others have added to it. -/
def ClassDecl.SetsMembers (f : ClassDecl → ClassDecl) : Prop :=
  ∀ d, ∃ kind fields variants mapValue?, f d = { d with kind, fields, variants, mapValue? }

namespace ClassDecl.SetsMembers

variable {f : ClassDecl → ClassDecl} (hf : SetsMembers f) (d : ClassDecl)
include hf

theorem typeName_eq : (f d).typeName = d.typeName := by
  obtain ⟨_, _, _, _, h⟩ := hf d
  rw [h]
  rfl

theorem key_eq : (f d).key = d.key := congrArg TypeName.key (hf.typeName_eq d)

theorem fingerprint_eq : (f d).fingerprint = d.fingerprint := by
  obtain ⟨_, _, _, _, h⟩ := hf d
  rw [h]

theorem nestedEnums_eq : (f d).nestedEnums = d.nestedEnums := by
  obtain ⟨_, _, _, _, h⟩ := hf d
  rw [h]

theorem sealedParents_eq : (f d).sealedParents = d.sealedParents := by
  obtain ⟨_, _, _, _, h⟩ := hf d
  rw [h]

end ClassDecl.SetsMembers

namespace Catalog

inductive Grows (digest : Digest) : Option TypeName → Option TypeName → Catalog → Catalog → Prop
  | refl {owner? sealed? : Option TypeName} (c : Catalog) : Grows digest owner? sealed? c c
  | trans {owner? sealed? : Option TypeName} {c c' c'' : Catalog} :
    Grows digest owner? sealed? c c' → Grows digest owner? sealed? c' c'' →
    Grows digest owner? sealed? c c''
  | newClass {owner? sealed? : Option TypeName} {c c' : Catalog} {type : TypeName}
    {node : SchemaNode} {kind : ClassKind} {role : Role} {f : ClassDecl → ClassDecl} :
    type.owner? = none → c.IsFree type.key →
    Grows digest (some type) (some type)
      (c.addClass (.ofSchema type (node.fingerprint digest) kind role node.info)) c' →
    ClassDecl.SetsMembers f → Grows digest owner? sealed? c (c'.modifyClass type.key f)
  | newAlias {owner? : Option TypeName} {parent : TypeName} {c : Catalog} {a : AliasDecl} :
    a.sealedParent? = some parent →
    a.fingerprint = .ofMembers digest (Resolution.aliasMembers a.target) →
    c.IsFree a.key → Grows digest owner? (some parent) c (c.addAlias a)
  | join {owner? : Option TypeName} {parent : TypeName} {c : Catalog} (key : TypeKey) :
    Grows digest owner? (some parent) c (c.modifyClass key (·.addSealedParent parent))
  | newEnum {owner? sealed? : Option TypeName} {c : Catalog} {e : EnumDecl} : e.owner? = none →
    c.classes.table.get? e.key = none → c.enums.table.get? e.key = none →
    Grows digest owner? sealed? c (c.addEnum e)
  | nest {sealed? : Option TypeName} {owner : TypeName} {c : Catalog} {e : EnumDecl} :
    e.owner? = some owner.name → e.package = owner.package →
    Grows digest (some owner) sealed? c (c.nest owner.key e)

namespace Grows

variable {digest : Digest} {owner? sealed? : Option TypeName} {c c' : Catalog}

/-- A class that is left without its members. -/
theorem newFrame {type : TypeName} {node : SchemaNode} {kind : ClassKind} {role : Role}
    (howner : type.owner? = none) (hfree : c.IsFree type.key)
    (h : Grows digest (some type) (some type)
      (c.addClass (.ofSchema type (node.fingerprint digest) kind role node.info)) c') :
    Grows digest owner? sealed? c c' := by
  have hid : ClassDecl.SetsMembers id := fun d => ⟨d.kind, d.fields, d.variants, d.mapValue?, rfl⟩
  have hnew : Grows digest owner? sealed? c (c'.modifyClass type.key id) :=
    .newClass howner hfree h hid
  simpa only [modifyClass_id] using hnew

/-- What happens without a sealed class happens with one too. -/
theorem of_unsealed (h : Grows digest owner? none c c') : Grows digest owner? sealed? c c' := by
  generalize hnone : (none : Option TypeName) = s at h
  induction h with
  | refl c => exact .refl c
  | trans _ _ ih ih' => exact (ih hnone).trans (ih' hnone)
  | newClass howner hfree h hf => exact .newClass howner hfree h hf
  | newAlias => cases hnone
  | join => cases hnone
  | newEnum howner hclass henum => exact .newEnum howner hclass henum
  | nest howner hpackage => exact .nest howner hpackage

/-- What happens without an owner happens with one too. -/
theorem of_unowned (h : Grows digest none sealed? c c') : Grows digest owner? sealed? c c' := by
  generalize hnone : (none : Option TypeName) = o at h
  induction h with
  | refl c => exact .refl c
  | trans _ _ ih ih' => exact (ih hnone).trans (ih' hnone)
  | newClass howner hfree h hf => exact .newClass howner hfree h hf
  | newAlias hparent hfingerprint hfree => exact .newAlias hparent hfingerprint hfree
  | join key => exact .join key
  | newEnum howner hclass henum => exact .newEnum howner hclass henum
  | nest => cases hnone

end Grows

end Catalog

@[simp]
theorem Site.parent?_inside (site : Site) (owner : TypeName) :
    (site.inside owner).context.parent? = some owner := rfl

@[simp]
theorem Site.context_child (site : Site) (segment : String) :
    (site.child segment).context = site.context := rfl

@[simp]
theorem Site.package_child (site : Site) (segment : String) :
    (site.child segment).package = site.package := rfl

namespace Resolution

open Catalog

variable {α β : Type} {s : ResolutionSettings} {site : Site} {digest : Digest}
  {owner? sealed? : Option TypeName}

/-- The catalog only grows, whether `act` succeeds or not. -/
def Growing (digest : Digest) (owner? sealed? : Option TypeName) (act : ResolveM α) : Prop :=
  ∀ c, Outcome act c (fun _ c' => Grows digest owner? sealed? c c') (Grows digest owner? sealed? c)

namespace Growing

variable {x : ResolveM α} {f : α → ResolveM β}

theorem pure (a : α) : Growing digest owner? sealed? (Pure.pure a) := fun c => .pure (.refl c)

theorem bind (hx : Growing digest owner? sealed? x)
    (hf : ∀ a, Growing digest owner? sealed? (f a)) :
    Growing digest owner? sealed? (x >>= f) := fun c =>
  .bind (hx c) fun a c' hc =>
    (hf a c').mono (fun _ _ hc' => hc.trans hc') fun _ hc' => hc.trans hc'

theorem map {g : α → β} (hx : Growing digest owner? sealed? x) :
    Growing digest owner? sealed? (g <$> x) := fun c =>
  .map (hx c)

theorem of_unsealed (hx : Growing digest owner? none x) :
    Growing digest owner? sealed? x := fun c =>
  (hx c).mono (fun _ _ h => h.of_unsealed) fun _ h => h.of_unsealed

theorem of_unowned (hx : Growing digest none sealed? x) :
    Growing digest owner? sealed? x := fun c =>
  (hx c).mono (fun _ _ h => h.of_unowned) fun _ h => h.of_unowned

/-- What is known of a result, together with the growth that led to it. -/
theorem outcome {c : Catalog} {Q : α → Catalog → Prop} {E : Catalog → Prop}
    (hx : Growing digest owner? sealed? x) (h : Outcome x c Q E) :
    Outcome x c (fun a c' => Grows digest owner? sealed? c c' ∧ Q a c') E :=
  ((hx c).and h).mono (fun _ _ h => h) fun _ h => h.2

end Growing

/-! ## Declarations -/

theorem declareAlias_growing (name : String) (target : TypeRef) (parent : TypeName) :
    Growing s.digest none (some parent) (declareAlias s name target parent site) := fun c =>
  declareAlias_outcome (.refl c) (fun _ _ _ => .refl c) fun _ _ hfree => .newAlias rfl rfl hfree

theorem declareEnum_growing (hint? : Option String) (info : SchemaInfo) (content : EnumContent)
    (placement : EnumPlacement) :
    Growing s.digest site.context.parent? sealed?
      (declareEnum s hint? info content site placement) := by
  intro c
  refine declareEnum_outcome (.refl c) ?_ ?_ fun _ _ _ _ _ _ => .refl c
  · intro name owner _ _ howner
    rw [howner]
    exact .nest rfl rfl
  · exact fun _ _ _ _ hfound henum => .newEnum rfl (separateEnumName_free hfound) henum

theorem joinVariant_growing (parent : TypeName) (name : String) (type : TypeRef) :
    Growing s.digest none (some parent) (joinVariant s parent name type site) := fun c =>
  joinVariant_outcome (fun variant _ => .join variant.key) fun _ =>
    declareAlias_growing name type parent c

/-! ## Schemas -/

theorem aliasVariants_growing (parent : TypeName) (members : List (String × ScalarKind)) :
    ∀ index, Growing s.digest none (some parent) (aliasVariants s parent site index members) := by
  induction members with
  | nil => exact fun _ => .pure []
  | cons member rest ih =>
    intro index
    rw [aliasVariants]
    exact .bind (declareAlias_growing _ _ parent) fun _ => .bind (ih _) fun _ => .pure _

theorem fieldsAt_growing_of {properties : List (String × SchemaNode)}
    (h : ∀ property ∈ properties, ∀ hint? site,
      Growing s.digest site.context.parent? none (typeAt s hint? property.2 site))
    (required : List String) :
    Growing s.digest site.context.parent? none (fieldsAt s required properties site) := by
  induction properties with
  | nil => exact .pure []
  | cons property rest ih =>
    rw [fieldsAt]
    exact .bind (h property List.mem_cons_self _ (site.child _)) fun _ =>
      .bind (ih fun property hmem => h property (List.mem_cons_of_mem _ hmem)) fun _ => .pure _

theorem variantsFrom_growing_of {alternatives : List SchemaNode}
    (htype : ∀ node ∈ alternatives, ∀ hint? site,
      Growing s.digest site.context.parent? none (typeAt s hint? node site))
    (hclass : ∀ node ∈ alternatives, ∀ name site,
      Growing s.digest none none (classAt s name node site)) (parent : TypeName) :
    ∀ index, Growing s.digest site.context.parent? (some parent)
      (variantsFrom s parent alternatives index site) := by
  induction alternatives with
  | nil => exact fun _ => .pure []
  | cons node rest ih =>
    intro index
    have hrest := ih (fun node hmem => htype node (List.mem_cons_of_mem _ hmem))
      (fun node hmem => hclass node (List.mem_cons_of_mem _ hmem)) (index + 1)
    rw [variantsFrom]
    split
    · refine .bind (.map (hclass node List.mem_cons_self _ _).of_unowned.of_unsealed) fun type => ?_
      exact .bind (joinVariant_growing parent _ type).of_unowned fun _ =>
        .bind hrest fun _ => .pure _
    · refine .bind (htype node List.mem_cons_self _ (site.child _)).of_unsealed fun type => ?_
      exact .bind (joinVariant_growing parent _ type).of_unowned fun _ =>
        .bind hrest fun _ => .pure _

theorem classOf_growing {info : SchemaInfo} {shape : ObjectSchema} (name : String)
    (hproperties : ∀ property ∈ shape.properties, ∀ hint? site,
      Growing s.digest site.context.parent? none (typeAt s hint? property.2 site))
    (halternatives : ∀ alternatives, shape.oneOf? = some alternatives → ∀ node ∈ alternatives,
      (∀ hint? site, Growing s.digest site.context.parent? none (typeAt s hint? node site)) ∧
        ∀ name site, Growing s.digest none none (classAt s name node site))
    (hvalues : ∀ values, shape.mapValues? = some values → ∀ hint? site,
      Growing s.digest site.context.parent? none (typeAt s hint? values.schema site)) :
    Growing s.digest none none (classOf s name info shape (partsOf s shape) site) := by
  intro c
  refine classOf_outcome (.refl c) (fun _ _ _ _ => .refl c) ?_ ?_ ?_
  · intro type alternatives _ honeOf ⟨htop, _, _⟩ hfree
    have hvariants : Growing s.digest (some type) (some type)
        (sealedVariants s alternatives type ((site.inside type).child "oneOf")) := by
      unfold sealedVariants
      split
      · exact (aliasVariants_growing type _ 0).of_unowned
      · exact variantsFrom_growing_of (fun node hmem => (halternatives _ honeOf node hmem).1)
          (fun node hmem => (halternatives _ honeOf node hmem).2) type 0
    exact (hvariants _).mono
      (fun variants _ h => .newClass htop.2 hfree h fun d =>
        ⟨d.kind, d.fields, variants, d.mapValue?, rfl⟩)
      fun _ h => .newFrame htop.2 hfree h
  · intro type values _ _ hmapValues ⟨htop, _, _⟩ hfree
    have hvalue : Growing s.digest (some type) (some type) (typeAt s (some (type.name ++ "Item"))
        values.schema ((site.inside type).child values.keyword.name)) :=
      (hvalues values hmapValues _ ((site.inside type).child _)).of_unsealed
    exact (hvalue _).mono
      (fun value _ h => .newClass htop.2 hfree h fun d =>
        ⟨d.kind, d.fields, d.variants, some value, rfl⟩)
      fun _ h => .newFrame htop.2 hfree h
  · intro type _ _ _ ⟨htop, _, _⟩ hfree
    have hfields : Growing s.digest (some type) (some type)
        (fieldsAt s shape.required shape.properties (site.inside type)) :=
      .of_unsealed (fieldsAt_growing_of hproperties shape.required)
    exact (hfields _).mono
      (fun fields _ h => .newClass htop.2 hfree h fun d =>
        ⟨_, fields, d.variants, d.mapValue?, rfl⟩)
      fun _ h => .newFrame htop.2 hfree h

theorem growing_byChildren (node : SchemaNode) :
    (∀ hint? site, Growing s.digest site.context.parent? none (typeAt s hint? node site)) ∧
      ∀ name site, Growing s.digest none none (classAt s name node site) := by
  induction node using SchemaNode.byChildren with
  | scalar info kind =>
    refine ⟨fun hint? site c => ?_, fun _ _ c => classAt_outcome_of_not_object rfl (.refl c)⟩
    exact typeAt_scalar_outcome (.refl c) (fun _ => .refl c) fun _ content _ _ =>
      declareEnum_growing hint? info content _ c
  | null info =>
    exact ⟨fun _ _ c => typeAt_null_outcome (.refl c) (.refl c),
      fun _ _ c => classAt_outcome_of_not_object rfl (.refl c)⟩
  | array info items ih =>
    exact ⟨fun _ site c => typeAt_array_outcome (.refl c) (ih.1 _ (site.child "items") c),
      fun _ _ c => classAt_outcome_of_not_object rfl (.refl c)⟩
  | object info shape hproperties halternatives hvalues =>
    have hclass (name : String) (site : Site) :
        Growing s.digest none none (classOf s name info shape (partsOf s shape) site) :=
      classOf_growing name (fun property hmem => (hproperties property hmem).1) halternatives
        (fun values h => (hvalues values h).1)
    constructor
    · intro hint? site c
      refine typeAt_object_outcome (.refl c) ?_ ?_ ?_
      · exact fun _ content _ _ => declareEnum_growing hint? info content _ c
      · exact fun values _ _ h => (hvalues values h).1 _ (site.child _) c
      · exact fun name _ _ _ => (hclass name site).of_unowned c
    · exact fun name site c => classAt_object_outcome (.refl c) (hclass name site c)

theorem typeAt_growing (hint? : Option String) (node : SchemaNode) (site : Site) :
    Growing s.digest site.context.parent? none (typeAt s hint? node site) :=
  (growing_byChildren node).1 hint? site

theorem classAt_growing (name : String) (node : SchemaNode) (site : Site) :
    Growing s.digest none none (classAt s name node site) :=
  (growing_byChildren node).2 name site

theorem classOf_partsOf_growing (name : String) (info : SchemaInfo) (shape : ObjectSchema) :
    Growing s.digest none none (classOf s name info shape (partsOf s shape) site) :=
  classOf_growing name (fun property _ hint? site => typeAt_growing hint? property.2 site)
    (fun _ _ node _ => growing_byChildren node)
    (fun values _ hint? site => typeAt_growing hint? values.schema site)

theorem fieldsAt_growing (required : List String) (properties : List (String × SchemaNode)) :
    Growing s.digest site.context.parent? none (fieldsAt s required properties site) :=
  fieldsAt_growing_of (fun property _ hint? site => typeAt_growing hint? property.2 site) required

theorem variantsFrom_growing (parent : TypeName) (alternatives : List SchemaNode) (index : Nat) :
    Growing s.digest site.context.parent? (some parent)
      (variantsFrom s parent alternatives index site) :=
  variantsFrom_growing_of (fun node _ hint? site => typeAt_growing hint? node site)
    (fun node _ name site => classAt_growing name node site) parent index

theorem sealedVariants_growing (alternatives : List SchemaNode) (parent : TypeName) (site : Site) :
    Growing s.digest site.context.parent? (some parent)
      (sealedVariants s alternatives parent site) := by
  unfold sealedVariants
  split
  · exact (aliasVariants_growing parent _ 0).of_unowned
  · exact variantsFrom_growing parent alternatives 0

end Resolution

end ThingTypes
