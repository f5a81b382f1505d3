import Mathlib.Data.List.MinMax
import ThingTypes.Proofs.Json.Parts
import ThingTypes.Proofs.Resolution.Repetition

/-
  The limit on how deep schemas nest. A resolution enters a level for each schema that it resolves
  inside another, and leaves it again however it ends. It is refused as too deep only where the
  schema is higher than the levels that are left; a type that it answers nests within the limit.

  `LimitsDepth s levels act` is what every part of a resolution has: `act` ends at the depth where
  it starts, and fails as too deep only if `levels` more levels are too many. Steps that declare
  something have it with no level at all, and a level is added where one is entered.
-/

namespace ThingTypes

namespace SchemaNode

/-- The schemas one level below, which are resolved on the way to the type of a schema. Declared
values hide all others, and alternatives that become aliases are not resolved. -/
def inner (node : SchemaNode) : List SchemaNode :=
  match node.kind with
  | .scalar _ | .null => []
  | .array items => [items]
  | .object shape =>
    if node.enumValues?.isSome then []
    else
      match shape.oneOf?, shape.mapValues? with
      | some alternatives, _ =>
        if alternatives.all fun node => (Resolution.soleScalar? node).isSome then []
        else alternatives
      | none, some values => [values.schema]
      | none, none => shape.properties.map Prod.snd

theorem sizeOf_lt_of_inner {node child : SchemaNode} (h : child ∈ node.inner) :
    sizeOf child < sizeOf node := by
  obtain ⟨info, kind | _ | shape | items⟩ := node
  · cases h
  · cases h
  · have hchild : sizeOf child < sizeOf shape := by
      simp only [inner, kind] at h
      split at h
      · cases h
      · split at h
        · rename_i honeOf
          split at h
          · cases h
          · exact sizeOf_lt_of_alternative honeOf h
        · rename_i hmapValues
          obtain rfl := List.mem_singleton.mp h
          exact sizeOf_lt_of_mapValues hmapValues
        · obtain ⟨property, hproperty, rfl⟩ := List.mem_map.mp h
          exact sizeOf_lt_of_property hproperty
    simp only [mk.sizeOf_spec, SchemaKind.object.sizeOf_spec]
    omega
  · obtain rfl := List.mem_singleton.mp h
    simp only [mk.sizeOf_spec, SchemaKind.array.sizeOf_spec]
    omega

/-- How many levels a schema nests, itself included. -/
def height (node : SchemaNode) : ℕ :=
  1 + (node.inner.attach.map fun child => height child.1).foldr max 0
termination_by sizeOf node
decreasing_by exact sizeOf_lt_of_inner child.2

theorem height_eq (node : SchemaNode) :
    node.height = 1 + (node.inner.map height).foldr max 0 := by
  rw [height, List.attach_map_val]

theorem height_lt_of_inner {node child : SchemaNode} (h : child ∈ node.inner) :
    child.height < node.height := by
  have hmax : child.height ≤ (node.inner.map height).foldr max 0 :=
    List.le_max_of_le' 0 (List.mem_map_of_mem h) le_rfl
  rw [height_eq node]
  omega

theorem height_pos (node : SchemaNode) : 0 < node.height := by
  rw [height_eq]
  omega

end SchemaNode

namespace Resolution

variable {α β : Type} {s : ResolutionSettings} {site : Site} {levels : ℕ}

/-! ## Errors that are not about depth -/

/-- Whatever the computation fails with, it is not that a schema is too deep. -/
def NeverTooDeep (r : Except GenerationError α) : Prop :=
  ∀ path limit, r ≠ .error (.schemaTooDeep path limit)

namespace NeverTooDeep

theorem ok (a : α) : NeverTooDeep (.ok a) := nofun

theorem malformed (path : String) (fault : SchemaFault) :
    NeverTooDeep (.error (.malformedSchema path fault) : Except GenerationError α) := nofun

theorem unsupported (path : String) (fault : ShapeFault) :
    NeverTooDeep (.error (.unsupportedShape path fault) : Except GenerationError α) := nofun

theorem bind {r : Except GenerationError α} {f : α → Except GenerationError β}
    (hr : NeverTooDeep r) (hf : ∀ a, NeverTooDeep (f a)) : NeverTooDeep (r >>= f) := by
  cases r with
  | ok a => exact hf a
  | error e =>
    rintro path limit ⟨⟩
    exact hr path limit rfl

theorem mapM {f : α → Except GenerationError β} (hf : ∀ a, NeverTooDeep (f a)) (l : List α) :
    NeverTooDeep (l.mapM f) := by
  induction l with
  | nil => exact ok []
  | cons a l ih =>
    rw [List.mapM_cons]
    exact bind (hf a) fun b => bind ih fun bs => ok (b :: bs)

end NeverTooDeep

/-- Values that make no enum are refused for what they are. -/
theorem ofScalars_neverTooDeep (digest : Digest) (kind : ScalarKind) (values : List Json)
    (path : String) : NeverTooDeep (EnumContent.ofScalars digest kind values path) := by
  refine .bind (.mapM (fun value => ?_) _) fun _ => .ok _
  unfold EnumContent.checkScalar
  split <;> nofun

theorem inferFields_neverTooDeep (path : String) (entries : List (String × Json)) :
    ∀ fields, NeverTooDeep (EnumContent.inferFields path fields entries) := by
  induction entries with
  | nil => exact .ok
  | cons entry rest ih =>
    intro fields
    rw [EnumContent.inferFields]
    split
    · exact ih fields
    · split
      · exact ih _
      · nofun

theorem ofRecords_neverTooDeep (digest : Digest) (properties : List (String × SchemaNode))
    (values : List Json) (path : String) :
    NeverTooDeep (EnumContent.ofRecords digest properties values path) := by
  refine .bind (.mapM (fun property => ?_) _) fun declared => ?_
  · unfold EnumContent.declaredField
    split <;> nofun
  refine .bind (.mapM (fun value => ?_) _) fun records => ?_
  · unfold EnumContent.recordMembers
    split <;> nofun
  · dsimp only
    split
    · exact .bind (inferFields_neverTooDeep path _ []) fun _ => .ok _
    · exact .ok _

theorem claimedClass_neverTooDeep (name : String) (fingerprint : Fingerprint) (c : Catalog) :
    NeverTooDeep (claimedClass s name fingerprint site c) := by
  unfold claimedClass
  split
  · nofun
  · split <;> nofun

theorem withSeparateEnum_neverTooDeep (name : String) (info : SchemaInfo) (content : EnumContent)
    (c : Catalog) : NeverTooDeep (withSeparateEnum s name info content site c) := by
  have hname : NeverTooDeep (separateEnumName s c name content.fingerprint site) := by
    unfold separateEnumName
    dsimp only
    split
    · nofun
    · split <;> nofun
  have hinsert (e : EnumDecl) : NeverTooDeep (c.enums.insertSeparate e) := by
    unfold EnumCatalog.insertSeparate
    split <;> nofun
  unfold withSeparateEnum
  split
  · rename_i e he
    exact fun path limit h => hname path limit (by cases h; exact he)
  · split
    · rename_i e he
      exact fun path limit h => hinsert _ path limit (by cases h; exact he)
    · nofun

/-! ## Levels -/

/-- The run ends at the depth where it starts, and is refused as too deep only if `levels` more
levels are too many. -/
structure LimitsDepth (s : ResolutionSettings) (levels : ℕ) (act : ResolveM α) : Prop where
  depth_eq : ∀ st, (leaves act st).depth = st.depth
  tooDeep : ∀ {st path limit}, answer act st = .error (.schemaTooDeep path limit) →
    limit = s.maxDepth ∧ s.maxDepth < st.depth + levels

namespace LimitsDepth

variable {x : ResolveM α} {f : α → ResolveM β}

theorem mono {levels' : ℕ} (hx : LimitsDepth s levels x) (hle : levels ≤ levels') :
    LimitsDepth s levels' x where
  depth_eq := hx.depth_eq
  tooDeep h := by
    obtain ⟨hlimit, hdepth⟩ := hx.tooDeep h
    exact ⟨hlimit, by omega⟩

theorem ofCatalog {f : Catalog → Except GenerationError (α × Catalog)}
    (hf : ∀ c, NeverTooDeep (f c)) : LimitsDepth s levels (ofCatalog f) where
  depth_eq st := by
    unfold leaves Resolution.ofCatalog
    cases f st.catalog <;> rfl
  tooDeep {st path limit} h := by
    unfold answer Resolution.ofCatalog at h
    cases hcatalog : f st.catalog with
    | ok r =>
      rw [hcatalog] at h
      cases h
    | error e =>
      rw [hcatalog] at h
      cases h
      exact absurd hcatalog (hf _ path limit)

theorem pure (a : α) : LimitsDepth s levels (Pure.pure a) := ⟨fun _ => rfl, nofun⟩

theorem liftExcept {r : Except GenerationError α} (hr : NeverTooDeep r) :
    LimitsDepth s levels (liftExcept r : ResolveM α) := by
  cases r with
  | ok a => exact pure a
  | error e =>
    refine ⟨fun _ => rfl, fun {st path limit} h => ?_⟩
    cases h
    exact absurd rfl (hr path limit)

theorem modifyCatalog (f : Catalog → Catalog) : LimitsDepth s levels (modifyCatalog f) :=
  ⟨fun _ => rfl, nofun⟩

theorem bind (hx : LimitsDepth s levels x) (hf : ∀ a, LimitsDepth s levels (f a)) :
    LimitsDepth s levels (x >>= f) where
  depth_eq st := by
    rw [leaves_bind]
    cases answer x st with
    | ok a => exact ((hf a).depth_eq _).trans (hx.depth_eq st)
    | error e => exact hx.depth_eq st
  tooDeep {st path limit} h := by
    rw [answer_bind] at h
    cases hanswer : answer x st with
    | ok a =>
      rw [hanswer] at h
      rw [← hx.depth_eq st]
      exact (hf a).tooDeep h
    | error e =>
      rw [hanswer] at h
      cases h
      exact hx.tooDeep hanswer

theorem map {g : α → β} (hx : LimitsDepth s levels x) : LimitsDepth s levels (g <$> x) := by
  rw [map_eq_pure_bind]
  exact hx.bind fun a => pure (g a)

/-- Entering a level adds one. -/
theorem nested (hx : LimitsDepth s levels x) : LimitsDepth s (levels + 1) (nested s site x) where
  depth_eq st := by
    rw [leaves_nested]
    split_ifs
    · rfl
    · change (leaves x _).depth - 1 = st.depth
      rw [hx.depth_eq]
      rfl
  tooDeep {st path limit} h := by
    rw [answer_nested] at h
    split_ifs at h with hlimit
    · cases h
      exact ⟨rfl, by omega⟩
    · obtain ⟨heq, hdepth⟩ := hx.tooDeep h
      exact ⟨heq, by dsimp only at hdepth; omega⟩

end LimitsDepth

/-! ## Declarations -/

theorem claimClass_limitsDepth (name : String) (fingerprint : Fingerprint) :
    LimitsDepth s levels (claimClass s name fingerprint site) := by
  rw [claimClass_eq]
  exact .ofCatalog fun c => claimedClass_neverTooDeep name fingerprint c

theorem declareClass_limitsDepth {name : String} {node : SchemaNode} {kind : ClassKind}
    {members : TypeName → ResolveM (ClassDecl → ClassDecl)}
    (hmembers : ∀ type, LimitsDepth s levels (members type)) :
    LimitsDepth s levels (declareClass s name node kind site members) := by
  unfold declareClass
  refine (claimClass_limitsDepth name _).bind fun slot => ?_
  cases slot with
  | existing type => exact .pure type
  | fresh type =>
    refine (LimitsDepth.modifyCatalog _).bind fun _ => (hmembers type).bind fun addMembers => ?_
    exact (LimitsDepth.modifyCatalog _).bind fun _ => .pure type

theorem declareAlias_limitsDepth (name : String) (target : TypeRef) (sealedClass : TypeName) :
    LimitsDepth s levels (declareAlias s name target sealedClass site) := by
  unfold declareAlias
  refine (claimClass_limitsDepth name _).bind fun slot => ?_
  cases slot with
  | existing type => exact .pure type
  | fresh type => exact (LimitsDepth.modifyCatalog _).bind fun _ => .pure type

theorem declareEnum_limitsDepth (hint? : Option String) (info : SchemaInfo)
    (content : EnumContent) (placement : EnumPlacement) :
    LimitsDepth s levels (declareEnum s hint? info content site placement) := by
  unfold declareEnum
  cases hintedName? hint? info.title? with
  | none => exact .liftExcept (.malformed _ _)
  | some name =>
    have hseparate : LimitsDepth s levels (declareSeparateEnum s name info content site) := by
      rw [declareSeparateEnum_eq]
      exact .ofCatalog fun c => withSeparateEnum_neverTooDeep name info content c
    cases placement with
    | separate => exact hseparate
    | inline =>
      cases site.context.parent? with
      | none => exact hseparate
      | some owner => exact (LimitsDepth.modifyCatalog _).bind fun _ => .pure _

theorem joinVariant_limitsDepth (sealedClass : TypeName) (name : String) (type : TypeRef) :
    LimitsDepth s levels (joinVariant s sealedClass name type site) := by
  unfold joinVariant
  split
  · exact (LimitsDepth.modifyCatalog _).bind fun _ => .pure _
  · exact (declareAlias_limitsDepth name _ sealedClass).bind fun _ => .pure _

theorem aliasVariants_limitsDepth (sealedClass : TypeName) (members : List (String × ScalarKind)) :
    ∀ index, LimitsDepth s levels (aliasVariants s sealedClass site index members) := by
  induction members with
  | nil => exact fun _ => .pure []
  | cons member rest ih =>
    intro index
    rw [aliasVariants]
    exact (declareAlias_limitsDepth _ _ sealedClass).bind fun _ => (ih _).bind fun _ => .pure _

/-! ## Schemas -/

/-- The schema takes this many levels, as a type and as a class. -/
structure TakesLevels (s : ResolutionSettings) (levels : ℕ) (node : SchemaNode) : Prop where
  ofType : ∀ hint? site, LimitsDepth s levels (typeAt s hint? node site)
  ofClass : ∀ name site, LimitsDepth s levels (classAt s name node site)

theorem TakesLevels.mono {more : ℕ} {node : SchemaNode} (h : TakesLevels s levels node)
    (hmore : levels ≤ more) : TakesLevels s more node where
  ofType hint? site := (h.ofType hint? site).mono hmore
  ofClass name site := (h.ofClass name site).mono hmore

theorem fieldsAt_limitsDepth {properties : List (String × SchemaNode)}
    (h : ∀ property ∈ properties, TakesLevels s levels property.2) (required : List String) :
    LimitsDepth s levels (fieldsAt s required properties site) := by
  induction properties with
  | nil => exact .pure []
  | cons property rest ih =>
    rw [fieldsAt]
    refine ((h property List.mem_cons_self).ofType _ _).bind fun _ => ?_
    exact (ih fun property hmem => h property (List.mem_cons_of_mem _ hmem)).bind fun _ => .pure _

theorem variantsFrom_limitsDepth {alternatives : List SchemaNode}
    (h : ∀ node ∈ alternatives, TakesLevels s levels node) (sealedClass : TypeName) :
    ∀ index, LimitsDepth s levels (variantsFrom s sealedClass alternatives index site) := by
  induction alternatives with
  | nil => exact fun _ => .pure []
  | cons node rest ih =>
    intro index
    have hnode := h node List.mem_cons_self
    have hrest := ih (fun node hmem => h node (List.mem_cons_of_mem _ hmem)) (index + 1)
    rw [variantsFrom]
    split
    · refine (hnode.ofClass _ _).map.bind fun type => ?_
      exact (joinVariant_limitsDepth sealedClass _ type).bind fun _ => hrest.bind fun _ => .pure _
    · refine (hnode.ofType _ _).bind fun type => ?_
      exact (joinVariant_limitsDepth sealedClass _ type).bind fun _ => hrest.bind fun _ => .pure _

/-- Alternatives that do not all become aliases are resolved. -/
theorem mem_inner_of_alternative {info : SchemaInfo} {shape : ObjectSchema}
    {alternatives : List SchemaNode} {node : SchemaNode}
    (henum : (SchemaNode.mk info (.object shape)).enumValues? = none)
    (honeOf : shape.oneOf? = some alternatives) (hsole : soleScalars? alternatives = none)
    (hnode : node ∈ alternatives) : node ∈ (SchemaNode.mk info (.object shape)).inner := by
  have hother : alternatives.all (fun node => (soleScalar? node).isSome) = false := by
    by_contra hall
    rw [Bool.not_eq_false, List.all_eq_true] at hall
    obtain ⟨members, hmembers⟩ := exists_mapM_of_isSome hall
    rw [soleScalars?, if_neg (by simpa using List.ne_nil_of_mem hnode), hmembers] at hsole
    cases hsole
  simp only [SchemaNode.inner, SchemaNode.kind, henum, Option.isSome_none, Bool.false_eq_true,
    if_false, honeOf, hother]
  exact hnode

theorem scalarType_limitsDepth (hint? : Option String) (info : SchemaInfo) (kind : ScalarKind) :
    LimitsDepth s levels (scalarType s hint? info kind site) := by
  unfold scalarType
  dsimp only
  split
  · split
    · refine (LimitsDepth.liftExcept (ofScalars_neverTooDeep _ _ _ _)).bind fun content => ?_
      exact (declareEnum_limitsDepth hint? info content _).bind fun _ => .pure _
    · exact .pure _
  · exact .pure _

section Objects

variable {info : SchemaInfo} {shape : ObjectSchema}
  (h : ∀ node ∈ (SchemaNode.mk info (.object shape)).inner, TakesLevels s levels node)
include h

theorem classOf_limitsDepth (name : String) :
    LimitsDepth s levels (classOf s name info shape (partsOf s shape) site) := by
  unfold classOf
  dsimp only
  cases henum : (SchemaNode.mk info (.object shape)).enumValues? with
  | some values => exact .liftExcept (.unsupported _ _)
  | none =>
    simp only [Option.isSome_none, Bool.false_eq_true, if_false]
    split
    · rename_i alternatives honeOf
      refine declareClass_limitsDepth fun type => ?_
      cases hsole : soleScalars? alternatives with
      | some members => exact (aliasVariants_limitsDepth type members 0).bind fun _ => .pure _
      | none =>
        rw [partsOf, honeOf]
        simp only [alternativesAt]
        exact (variantsFrom_limitsDepth (fun node hnode =>
          h node (mem_inner_of_alternative henum honeOf hsole hnode)) type 0).bind fun _ => .pure _
    · rename_i values honeOf hmapValues
      refine declareClass_limitsDepth fun type => ?_
      have hinner : values.schema ∈ (SchemaNode.mk info (.object shape)).inner := by
        simp [SchemaNode.inner, SchemaNode.kind, henum, honeOf, hmapValues]
      rw [partsOf, hmapValues]
      simp only [mapValueAt]
      exact ((h _ hinner).ofType _ _).bind fun _ => .pure _
    · rename_i honeOf hmapValues
      refine declareClass_limitsDepth fun type => ?_
      have hinner : ∀ property ∈ shape.properties,
          property.2 ∈ (SchemaNode.mk info (.object shape)).inner := by
        intro property hproperty
        simp only [SchemaNode.inner, SchemaNode.kind, henum, honeOf, hmapValues]
        exact List.mem_map_of_mem hproperty
      exact (fieldsAt_limitsDepth (fun property hmem => h _ (hinner property hmem)) _).bind
        fun _ => .pure _

theorem objectType_limitsDepth (hint? : Option String) :
    LimitsDepth s levels (objectType s hint? info shape (partsOf s shape) site) := by
  unfold objectType
  dsimp only
  cases henum : (SchemaNode.mk info (.object shape)).enumValues? with
  | some values =>
    refine (LimitsDepth.liftExcept (ofRecords_neverTooDeep _ _ _ _)).bind fun content => ?_
    exact (declareEnum_limitsDepth hint? info content _).bind fun _ => .pure _
  | none =>
    dsimp only
    split
    · rename_i values honeOf hmapValues
      have hinner : values.schema ∈ (SchemaNode.mk info (.object shape)).inner := by
        simp [SchemaNode.inner, SchemaNode.kind, henum, honeOf, hmapValues]
      rw [partsOf, hmapValues]
      simp only [mapValueAt]
      exact ((h _ hinner).ofType _ _).bind fun _ => .pure _
    · split
      · exact .liftExcept (.malformed _ _)
      · exact (classOf_limitsDepth h _).bind fun _ => .pure _

end Objects

/-- A schema takes one level more than what stands in it. -/
theorem TakesLevels.of_inner {node : SchemaNode} (h : ∀ child ∈ node.inner,
    TakesLevels s levels child) : TakesLevels s (levels + 1) node := by
  have hrefused (hnode : node.object? = none) (name : String) (site : Site) :
      LimitsDepth s (levels + 1) (classAt s name node site) := by
    rw [classAt_eq_of_not_object s name hnode]
    exact .nested (.liftExcept (.unsupported _ _))
  obtain ⟨info, kind | _ | shape | items⟩ := node
  case scalar =>
    refine ⟨fun hint? site => ?_, hrefused rfl⟩
    rw [typeAt]
    exact .nested (scalarType_limitsDepth hint? info kind)
  case null =>
    refine ⟨fun hint? site => ?_, hrefused rfl⟩
    rw [typeAt]
    exact .nested (.pure _)
  case array =>
    refine ⟨fun hint? site => ?_, hrefused rfl⟩
    rw [typeAt]
    exact .nested (((h items (List.mem_singleton_self items)).ofType _ _).bind fun _ => .pure _)
  case object =>
    refine ⟨fun hint? site => ?_, fun name site => ?_⟩
    · rw [typeAt_eq_of_object]
      exact .nested (objectType_limitsDepth h hint?)
    · rw [classAt_eq_of_object]
      exact .nested (classOf_limitsDepth h name)

/-- A schema takes as many levels as it is high. -/
theorem takesLevels (node : SchemaNode) : TakesLevels s node.height node := by
  induction hheight : node.height using Nat.strong_induction_on generalizing node with
  | _ height ih =>
  subst hheight
  -- one level is the schema's own, and the others are left for what stands in it
  obtain ⟨levels, hlevels⟩ := Nat.exists_eq_succ_of_ne_zero node.height_pos.ne'
  rw [hlevels]
  refine .of_inner fun child hchild => ?_
  have hlt := SchemaNode.height_lt_of_inner hchild
  exact (ih child.height hlt child rfl).mono (by omega)

/-- The class of an object is within the levels of the object, which takes one itself. -/
theorem classOf_partsOf_limitsDepth (name : String) (info : SchemaInfo) (shape : ObjectSchema)
    (site : Site) :
    LimitsDepth s (SchemaNode.mk info (.object shape)).height
      (classOf s name info shape (partsOf s shape) site) :=
  classOf_limitsDepth (fun child hchild =>
    (takesLevels child).mono (SchemaNode.height_lt_of_inner hchild).le) name

/-! ## Types within the limit -/

end Resolution

/-- How many levels a type nests: one for each list and map, and one for what they hold. -/
def TypeRef.levels : TypeRef → ℕ
  | list item | map item => item.levels + 1
  | _ => 1

namespace Resolution

/-- What a level that is within the limit answers nests within it. -/
structure NestsWithin (s : ResolutionSettings) (x : ResolveM TypeRef) : Prop where
  levels_le : ∀ {st type st'}, st.depth ≤ s.maxDepth → x st = .ok type st' →
    st.depth + type.levels ≤ s.maxDepth + 1

namespace NestsWithin

/-- A type that is neither a list nor a map needs no further level. -/
theorem of_leaf {x : ResolveM α} {g : α → TypeRef} (hg : ∀ a, (g a).levels = 1) :
    NestsWithin s (x >>= fun a => Pure.pure (g a)) where
  levels_le {st type st'} hdepth h := by
    obtain ⟨a, st₁, -, hrest⟩ := bind_eq_ok_iff.mp h
    cases hrest
    rw [hg]
    omega

theorem pure {type : TypeRef} (htype : type.levels = 1) :
    NestsWithin s (Pure.pure type) where
  levels_le {st _ st'} hdepth h := by
    cases h
    omega

theorem throw (e : GenerationError) : NestsWithin s (MonadExcept.throw e) := ⟨nofun⟩

theorem liftExcept_bind {r : Except GenerationError α} {f : α → ResolveM TypeRef}
    (hf : ∀ a, NestsWithin s (f a)) : NestsWithin s (liftExcept r >>= f) := by
  cases r with
  | ok a => exact hf a
  | error e => exact throw e

/-- A list or a map of what a further level answers. -/
theorem of_item {x : ResolveM TypeRef} {g : TypeRef → TypeRef}
    (hg : ∀ type, (g type).levels = type.levels + 1)
    (hx : ∀ st type st', x st = .ok type st' → st.depth + type.levels ≤ s.maxDepth) :
    NestsWithin s (x >>= fun type => Pure.pure (g type)) where
  levels_le {st type st'} _ h := by
    obtain ⟨item, st₁, hrun, hrest⟩ := bind_eq_ok_iff.mp h
    cases hrest
    have hlevels := hx _ _ _ hrun
    rw [hg]
    omega

theorem levels_le_of_nested {x : ResolveM TypeRef} (hx : NestsWithin s x)
    {st st' : ResolutionState} {type : TypeRef} (h : nested s site x st = .ok type st') :
    st.depth + type.levels ≤ s.maxDepth := by
  obtain ⟨hlimit, st₁, hrun, -⟩ := nested_eq_ok_iff.mp h
  have hlevels : st.depth + 1 + type.levels ≤ s.maxDepth + 1 := by
    refine hx.levels_le ?_ hrun
    exact hlimit
  omega

end NestsWithin

/-- A type that a schema resolves to nests within the limit. -/
theorem levels_le_of_typeAt (node : SchemaNode) :
    ∀ hint? site st type st', typeAt s hint? node site st = .ok type st' →
      st.depth + type.levels ≤ s.maxDepth := by
  induction node using SchemaNode.byChildren with
  | scalar info kind =>
    intro hint? site st type st' h
    rw [typeAt] at h
    refine NestsWithin.levels_le_of_nested ?_ h
    unfold scalarType
    dsimp only
    split
    · split
      · exact .liftExcept_bind fun content => .of_leaf fun _ => rfl
      · exact .pure rfl
    · exact .pure rfl
  | null info =>
    intro hint? site st type st' h
    rw [typeAt] at h
    exact NestsWithin.levels_le_of_nested (.pure rfl) h
  | array info items ih =>
    intro hint? site st type st' h
    rw [typeAt] at h
    exact NestsWithin.levels_le_of_nested (.of_item (fun _ => rfl) (ih _ _)) h
  | object info shape _ _ hvalues =>
    intro hint? site st type st' h
    rw [typeAt_eq_of_object] at h
    refine NestsWithin.levels_le_of_nested ?_ h
    unfold objectType
    dsimp only
    split
    · exact .liftExcept_bind fun content => .of_leaf fun _ => rfl
    · split
      · rename_i values _ hmapValues
        rw [partsOf, hmapValues]
        simp only [mapValueAt]
        exact .of_item (fun _ => rfl) (hvalues values hmapValues _ _)
      · split
        · exact .throw _
        · exact .of_leaf fun _ => rfl

/-- A call takes as many levels as its schema is high. -/
theorem Call.act_limitsDepth {call : Call} (hrequest : ∀ name, call.request ≠ .enumNamed name) :
    LimitsDepth call.settings call.node.height call.act := by
  unfold act
  split
  · exact (takesLevels call.node).ofType _ _
  · exact (takesLevels call.node).ofType _ _
  · exact ((takesLevels call.node).ofClass _ _).map
  · rename_i name hname
    exact absurd hname (hrequest name)

/-- A class takes a level, whatever its schema is. -/
theorem depth_lt_of_classAt {name : String} {node : SchemaNode} {st st' : ResolutionState}
    {type : TypeName} (h : classAt s name node site st = .ok type st') :
    st.depth < s.maxDepth := by
  obtain ⟨info, kind | _ | shape | items⟩ := node
  case object =>
    rw [classAt_eq_of_object] at h
    exact (nested_eq_ok_iff.mp h).1
  all_goals
    rw [classAt] at h
    exact (nested_eq_ok_iff.mp h).1

/-- The type that a call answers nests within the limit. -/
theorem Call.levels_le {call : Call} (hrequest : ∀ name, call.request ≠ .enumNamed name)
    {st st' : ResolutionState} {type : TypeRef} (h : call.act st = .ok type st') :
    st.depth + type.levels ≤ call.settings.maxDepth := by
  obtain ⟨settings, request, node, package, context⟩ := call
  cases request with
  | type => exact levels_le_of_typeAt node _ _ _ _ _ h
  | field name => exact levels_le_of_typeAt node _ _ _ _ _ h
  | classNamed name =>
    change (TypeRef.classType <$> resolveClass settings name node package context) st = _ at h
    rw [map_eq_pure_bind] at h
    obtain ⟨name, st₁, hrun, hrest⟩ := bind_eq_ok_iff.mp h
    cases hrest
    exact depth_lt_of_classAt hrun
  | enumNamed name => exact absurd rfl (hrequest name)

/-- When a call is over the depth is what it was. A type that is answered nests within the limit,
and a schema is refused as too deep only if it is higher than what is left of the limit. -/
theorem limits_depth {call : Call} (hrequest : ∀ name, call.request ≠ .enumNamed name)
    (st : ResolutionState) :
    (call.after st).depth = st.depth ∧
    (∀ type, answer call.act st = .ok type →
      st.depth + type.levels ≤ call.settings.maxDepth) ∧
    ∀ path limit, answer call.act st = .error (.schemaTooDeep path limit) →
      limit = call.settings.maxDepth ∧ call.settings.maxDepth < st.depth + call.node.height := by
  have hlimits := Call.act_limitsDepth hrequest
  refine ⟨?_, ?_, ?_⟩
  · rw [Call.after_eq]
    exact hlimits.depth_eq st
  · intro type h
    unfold answer at h
    cases hrun : call.act st with
    | ok found st' =>
      rw [hrun] at h
      cases h
      exact Call.levels_le hrequest hrun
    | error e st' =>
      rw [hrun] at h
      cases h
  · intro path limit h
    exact hlimits.tooDeep h

/-- Lists of lists of text, three levels high. -/
def gridWithin (maxDepth : ℕ) : Call where
  settings := { maxDepth, digest := plainDigest }
  request := .field "grid"
  node := .mk {} (.array (.mk {} (.array (.mk {} (.scalar .string)))))
  package := "p"
  context := .root

/-- The lists resolve with three levels and are refused with two. -/
theorem limits_depth_grid :
    answer (gridWithin 3).act {} = .ok (.list (.list (.primitive .string))) ∧
    0 + (TypeRef.list (.list (.primitive .string))).levels ≤ 3 ∧
    answer (gridWithin 2).act {} = .error (.schemaTooDeep "grid/items/items" 2) ∧
    2 < 0 + (gridWithin 2).node.height ∧ ((gridWithin 2).after {}).depth = 0 := by
  have hrequest (n : ℕ) : ∀ name, (gridWithin n).request ≠ .enumNamed name := nofun
  have hresolves : answer (gridWithin 3).act {} = .ok (.list (.list (.primitive .string))) := rfl
  have hrefused : answer (gridWithin 2).act {} = .error (.schemaTooDeep "grid/items/items" 2) := rfl
  obtain ⟨-, hlevels, -⟩ := limits_depth (hrequest 3) {}
  obtain ⟨hdepth, -, htooDeep⟩ := limits_depth (hrequest 2) {}
  exact ⟨hresolves, hlevels _ hresolves, hrefused, (htooDeep _ _ hrefused).2, hdepth⟩

end Resolution

end ThingTypes
