import ThingTypes.Proofs.Catalog.Claims
import ThingTypes.Proofs.Resolution.Outcome

/-
  The rules for the steps that declare something. A class or an alias comes into the catalog
  together with its name, so the catalog grows by whole declarations: `addClass`, `addAlias`,
  `addEnum` and `nest` say what each adds.
-/

namespace ThingTypes

namespace Catalog

/-- The catalog with a class under a new name. -/
def addClass (c : Catalog) (d : ClassDecl) : Catalog :=
  { c with
    classes :=
      { c.classes with
        table := c.classes.table.insert d.key d.fingerprint
        classes := c.classes.classes.insert d.key d } }

/-- The catalog with an alias under a new name. -/
def addAlias (c : Catalog) (a : AliasDecl) : Catalog :=
  { c with
    classes :=
      { c.classes with
        table := c.classes.table.insert a.key a.fingerprint
        aliases := c.classes.aliases.insert a.key a } }

/-- The catalog with a top-level enum under a new name. -/
def addEnum (c : Catalog) (e : EnumDecl) : Catalog :=
  { c with
    enums :=
      { c.enums with
        table := c.enums.table.insert e.key e.fingerprint
        constants := c.enums.constants.insert e.key e.constantNames
        separate := c.enums.separate.insert e.key e } }

/-- The catalog with an enum nested in a class. -/
def nest (c : Catalog) (owner : TypeKey) (e : EnumDecl) : Catalog :=
  { c with enums := c.enums.insertInline e }.modifyClass owner (·.nestEnum e)

/-- No class, no alias and no top-level enum has the name. -/
def IsFree (c : Catalog) (key : TypeKey) : Prop :=
  c.classes.table.get? key = none ∧ c.enums.separate? key = none

/-! ### What can be found afterwards -/

variable (c : Catalog) (d : ClassDecl) (a : AliasDecl) (e : EnumDecl) (owner key k : TypeKey)
  (f : ClassDecl → ClassDecl)

theorem class?_addClass :
    (c.addClass d).classes.class? k = if k = d.key then some d else c.classes.class? k :=
  c.classes.classes.get?_insert k d.key d

theorem class?_addClass_self : (c.addClass d).classes.class? d.key = some d :=
  (c.class?_addClass d d.key).trans (if_pos rfl)

theorem table_addClass :
    (c.addClass d).classes.table.get? k =
      if k = d.key then some d.fingerprint else c.classes.table.get? k :=
  c.classes.table.get?_insert k d.key d.fingerprint

@[simp]
theorem alias?_addClass : (c.addClass d).classes.alias? k = c.classes.alias? k := rfl

@[simp]
theorem enums_addClass : (c.addClass d).enums = c.enums := rfl

theorem alias?_addAlias :
    (c.addAlias a).classes.alias? k = if k = a.key then some a else c.classes.alias? k :=
  c.classes.aliases.get?_insert k a.key a

theorem alias?_addAlias_self : (c.addAlias a).classes.alias? a.key = some a :=
  (c.alias?_addAlias a a.key).trans (if_pos rfl)

theorem table_addAlias :
    (c.addAlias a).classes.table.get? k =
      if k = a.key then some a.fingerprint else c.classes.table.get? k :=
  c.classes.table.get?_insert k a.key a.fingerprint

@[simp]
theorem class?_addAlias : (c.addAlias a).classes.class? k = c.classes.class? k := rfl

@[simp]
theorem enums_addAlias : (c.addAlias a).enums = c.enums := rfl

@[simp]
theorem classes_addEnum : (c.addEnum e).classes = c.classes := rfl

theorem separate?_addEnum :
    (c.addEnum e).enums.separate? k = if k = e.key then some e else c.enums.separate? k :=
  c.enums.separate.get?_insert k e.key e

theorem separate?_addEnum_self : (c.addEnum e).enums.separate? e.key = some e :=
  (c.separate?_addEnum e e.key).trans (if_pos rfl)

theorem enumTable_addEnum :
    (c.addEnum e).enums.table.get? k =
      if k = e.key then some e.fingerprint else c.enums.table.get? k :=
  c.enums.table.get?_insert k e.key e.fingerprint

theorem class?_modifyClass :
    (c.modifyClass key f).classes.class? k =
      (c.classes.class? k).map fun d => if k = key then f d else d :=
  c.classes.classes.get?_modify k key f

@[simp]
theorem table_modifyClass : (c.modifyClass key f).classes.table = c.classes.table := rfl

@[simp]
theorem alias?_modifyClass : (c.modifyClass key f).classes.alias? k = c.classes.alias? k := rfl

@[simp]
theorem enums_modifyClass : (c.modifyClass key f).enums = c.enums := rfl

theorem modifyClass_id : c.modifyClass key id = c := by
  obtain ⟨⟨table, ⟨entries, nodup⟩, aliases⟩, enums⟩ := c
  simp [modifyClass, ClassCatalog.modifyClass, OrderedMap.modify]

theorem mem_nestEnum {d : ClassDecl} {e e' : EnumDecl} (h : e' ∈ (d.nestEnum e).nestedEnums) :
    e' = e ∨ e' ∈ d.nestedEnums := by
  change e' ∈ ClassDecl.nestEnum.place e d.nestedEnums at h
  generalize d.nestedEnums = enums at h ⊢
  induction enums with
  | nil => exact .inl (List.mem_singleton.mp h)
  | cons first rest ih =>
    rw [ClassDecl.nestEnum.place] at h
    split at h
    · rcases List.mem_cons.mp h with h | h
      · exact .inl h
      · exact .inr (List.mem_cons_of_mem _ h)
    · rcases List.mem_cons.mp h with rfl | h
      · exact .inr List.mem_cons_self
      · exact (ih h).imp_right (List.mem_cons_of_mem _)

theorem class?_nest :
    (c.nest owner e).classes.class? k =
      (c.classes.class? k).map fun d => if k = owner then d.nestEnum e else d :=
  class?_modifyClass _ owner k _

@[simp]
theorem table_nest : (c.nest owner e).classes.table = c.classes.table := rfl

@[simp]
theorem alias?_nest : (c.nest owner e).classes.alias? k = c.classes.alias? k := rfl

@[simp]
theorem separate?_nest : (c.nest owner e).enums.separate? k = c.enums.separate? k := rfl

theorem enumTable_nest :
    (c.nest owner e).enums.table.get? k =
      if k = e.key then some e.fingerprint else c.enums.table.get? k :=
  c.enums.table.get?_insert k e.key e.fingerprint

end Catalog

/-- The name of a top-level type of a package. -/
def TypeName.IsTopLevel (type : TypeName) (package : String) : Prop :=
  type.package = package ∧ type.owner? = none

theorem TypeName.IsTopLevel.typeName_eq {type : TypeName} {package : String}
    (h : type.IsTopLevel package) : type.key.typeName = type := by
  obtain ⟨package', name, owner?⟩ := type
  obtain ⟨rfl, rfl⟩ := h
  rfl

/-! ## Claims -/

namespace Resolution

/-- The name of a top-level enum that the naming policy derives. -/
def derivedEnumName (s : ResolutionSettings) (c : Catalog) (name : String)
    (fingerprint : Fingerprint) (site : Site) : String :=
  Identifier.deriveName s.naming name site.context.parentName?
    (c.takenForEnum site.package fingerprint)

/-- A top-level enum gets the derived name, or where that is a class the first free one. -/
theorem separateEnumName_eq_ok_iff {s : ResolutionSettings} {c : Catalog} {name found : String}
    {fingerprint : Fingerprint} {site : Site} :
    separateEnumName s c name fingerprint site = .ok found ↔
      c.classes.table.get? ⟨site.package, derivedEnumName s c name fingerprint site⟩ = none ∧
          derivedEnumName s c name fingerprint site = found ∨
        c.classes.table.get? ⟨site.package, derivedEnumName s c name fingerprint site⟩ ≠ none ∧
          Identifier.firstFree? (derivedEnumName s c name fingerprint site)
            site.context.parentName? site.context.feature?
            (c.takenForEnum site.package fingerprint) = some found := by
  unfold separateEnumName
  dsimp only
  rw [← derivedEnumName]
  generalize derivedEnumName s c name fingerprint site = derived
  rw [ClassCatalog.isRegistered, OrderedMap.contains]
  cases c.classes.table.get? ⟨site.package, derived⟩ with
  | none => simp
  | some held =>
    cases Identifier.firstFree? derived site.context.parentName? site.context.feature?
      (c.takenForEnum site.package fingerprint) <;> simp

/-- The search for the name of a top-level enum ends at one that no class has. -/
theorem separateEnumName_free {s : ResolutionSettings} {c : Catalog} {name found : String}
    {fingerprint : Fingerprint} {site : Site}
    (h : separateEnumName s c name fingerprint site = .ok found) :
    c.classes.table.get? ⟨site.package, found⟩ = none := by
  rcases separateEnumName_eq_ok_iff.mp h with ⟨hfree, rfl⟩ | ⟨-, hfirst⟩
  · exact hfree
  · have htaken := List.find?_some hfirst
    rw [Bool.not_eq_true', List.contains_eq_mem, decide_eq_false_iff_not] at htaken
    by_contra hheld
    exact htaken (c.mem_takenForEnum.mpr (.inl hheld))

variable {α : Type} {c : Catalog} {s : ResolutionSettings} {site : Site} {E : Catalog → Prop}
  {name : String} {fingerprint : Fingerprint}

/-- A claim ends at one of the candidates: at one that holds the structure already, or at one that is
free, since names of top-level enums are passed over. -/
theorem claimCandidate_outcome {parent? feature? : Option String} {package : String}
    {Q : Option NameClaim → Catalog → Prop} (hnone : Q none c)
    (hexisting : ∀ found renamed,
      found ∈ Identifier.searchCandidates name parent? feature?
        (c.takenForClass package fingerprint) →
      c.classes.table.get? ⟨package, found⟩ = some fingerprint →
      Q (some ⟨found, renamed, true⟩) c)
    (hfresh : ∀ found renamed,
      found ∈ Identifier.searchCandidates name parent? feature?
        (c.takenForClass package fingerprint) → c.IsFree ⟨package, found⟩ →
      Q (some ⟨found, renamed, false⟩)
        { c with
          classes :=
            { c.classes with table := c.classes.table.insert ⟨package, found⟩ fingerprint } }) :
    Outcome (claimCandidate name parent? feature? package fingerprint) c Q E := by
  unfold claimCandidate
  refine .get fun st hst => ?_
  simp only [hst]
  rcases c.claimClassName_cases package (Identifier.searchCandidates name parent? feature?
      (c.takenForClass package fingerprint)) fingerprint with
    ⟨-, h⟩ | ⟨found, renamed, hfound, ⟨htable, h⟩ | ⟨hfree, h⟩⟩
  · rw [h]
    exact .pure hnone
  · rw [h]
    refine .bind (.set (Q := fun _ c' => Q (some ⟨found, renamed, true⟩) c') ?_)
      fun _ _ h => .pure h
    exact hexisting found renamed (List.mem_of_find?_eq_some hfound) htable
  · rw [h]
    refine .bind (.set (Q := fun _ c' => Q (some ⟨found, renamed, false⟩) c') ?_)
      fun _ _ h => .pure h
    exact hfresh found renamed (List.mem_of_find?_eq_some hfound) hfree

/-- A class that is called `name` can get this type name at the site: it stands at the top level,
and its name is a candidate after the one that the naming policy derives. Something is left of
`name` as a name of a class. -/
structure Offers (s : ResolutionSettings) (site : Site) (name : String) (type : TypeName) :
    Prop where
  topLevel : type.IsTopLevel site.package
  ne_empty : Identifier.className name ≠ ""
  candidate : ∃ taken, type.name ∈ Identifier.searchCandidates
    (Identifier.deriveName s.naming (Identifier.className name) site.context.parentName? taken)
    site.context.parentName? site.context.feature? taken

/-- What follows a claim starts from a name that holds the structure, or from one that was free and
is held now. -/
theorem claimClass_bind {k : ClassSlot → ResolveM α} {Q : α → Catalog → Prop} (herror : E c)
    (hexisting : ∀ type, Offers s site name type →
      c.classes.table.get? type.key = some fingerprint → Outcome (k (.existing type)) c Q E)
    (hfresh : ∀ type, Offers s site name type → c.IsFree type.key →
      Outcome (k (.fresh type))
        { c with
          classes :=
            { c.classes with table := c.classes.table.insert type.key fingerprint } } Q E) :
    Outcome (claimClass s name fingerprint site >>= k) c Q E := by
  refine .bind (Q := fun slot c' => Outcome (k slot) c' Q E) ?_ fun _ _ h => h
  unfold claimClass
  dsimp only
  split
  · exact .malformed herror
  · rename_i hne
    rw [String.isEmpty_iff] at hne
    refine .get fun st hst => ?_
    rw [hst]
    refine .bind (claimCandidate_outcome (Q := fun claim? c' => claim?.elim (E c') fun claim =>
        Outcome (k (if claim.existing then
          .existing { package := site.package, name := claim.name }
        else .fresh { package := site.package, name := claim.name })) c' Q E) herror
      (fun found _ hmem htable => hexisting _ ⟨⟨rfl, rfl⟩, hne, _, hmem⟩ htable)
      (fun found _ hmem hfree => hfresh { package := site.package, name := found }
        ⟨⟨rfl, rfl⟩, hne, _, hmem⟩ hfree)) ?_
    rintro (_ | claim) c' h
    · exact .malformed h
    · exact .pure h

theorem declareClass_outcome {node : SchemaNode} {kind : ClassKind}
    {members : TypeName → ResolveM (ClassDecl → ClassDecl)} {Q : TypeName → Catalog → Prop}
    (herror : E c)
    (hexisting : ∀ type, Offers s site name type →
      c.classes.table.get? type.key = some (node.fingerprint s.digest) → Q type c)
    (hfresh : ∀ type, Offers s site name type → c.IsFree type.key →
      Outcome (members type)
        (c.addClass
          (.ofSchema type (node.fingerprint s.digest) kind site.context.role node.info))
        (fun f c' => Q type (c'.modifyClass type.key f)) E) :
    Outcome (declareClass s name node kind site members) c Q E := by
  unfold declareClass
  refine claimClass_bind herror
    (fun type hoffers htable => .pure (hexisting type hoffers htable)) ?_
  intro type hoffers hfree
  have h := hfresh type hoffers hfree
  refine .bind (.modifyCatalog (Q := fun _ c' => Outcome (members type) c' _ E) h) fun _ _ h => ?_
  exact .bind h fun _ _ h =>
    .bind (.modifyCatalog (Q := fun _ c' => Q type c') h) fun _ _ h => .pure h

theorem declareAlias_outcome {target : TypeRef} {sealedClass : TypeName}
    {Q : TypeName → Catalog → Prop} (herror : E c)
    (hexisting : ∀ type, Offers s site name type →
      c.classes.table.get? type.key = some (.ofMembers s.digest (aliasMembers target)) → Q type c)
    (hfresh : ∀ type, Offers s site name type → c.IsFree type.key →
      Q type (c.addAlias
        { package := type.package, name := type.name, target
          fingerprint := .ofMembers s.digest (aliasMembers target)
          sealedParent? := some sealedClass })) :
    Outcome (declareAlias s name target sealedClass site) c Q E := by
  unfold declareAlias
  refine claimClass_bind herror
    (fun type hoffers htable => .pure (hexisting type hoffers htable)) ?_
  intro type hoffers hfree
  have h := hfresh type hoffers hfree
  exact .bind (.modifyCatalog (Q := fun _ c' => Q type c') h) fun _ _ h => .pure h

/-! ## Enums -/

theorem declareSeparateEnum_outcome {info : SchemaInfo} {content : EnumContent}
    {Q : TypeName → Catalog → Prop} (herror : E c)
    (hinserted : ∀ found, separateEnumName s c name content.fingerprint site = .ok found →
      c.enums.table.get? ⟨site.package, found⟩ = none →
      Q { package := site.package, name := found }
        (c.addEnum (enumDecl found info content site.package none)))
    (hreused : ∀ found, separateEnumName s c name content.fingerprint site = .ok found →
      c.enums.table.get? ⟨site.package, found⟩ = some content.fingerprint →
      Q { package := site.package, name := found } c) :
    Outcome (declareSeparateEnum s name info content site) c Q E := by
  unfold declareSeparateEnum
  refine .get fun st hst => ?_
  simp only [hst]
  refine .bind (.liftExcept (Q := fun found c' =>
    separateEnumName s c name content.fingerprint site = .ok found ∧ c' = c)
    (fun found h => ⟨h, rfl⟩) herror) ?_
  rintro found c ⟨hfound, rfl⟩
  let e := enumDecl found info content site.package none
  refine .bind (.liftExcept (Q := fun registered c' =>
    Q e.typeName { c' with enums := registered.2 }) ?_ herror) fun _ _ h =>
      .bind (.modifyCatalog (Q := fun _ c' => Q e.typeName c') h) fun _ _ h => .pure h
  intro registered h
  cases htable : c.enums.table.get? e.key with
  | none =>
    rw [EnumCatalog.insertSeparate_of_free htable] at h
    cases h
    exact hinserted found hfound htable
  | some f =>
    by_cases hf : f = e.fingerprint
    · rw [hf] at htable
      rw [EnumCatalog.insertSeparate_of_same htable] at h
      cases h
      exact hreused found hfound htable
    · rw [EnumCatalog.insertSeparate_of_other htable hf] at h
      cases h

theorem declareEnum_outcome {hint? : Option String} {info : SchemaInfo} {content : EnumContent}
    {placement : EnumPlacement} {Q : TypeName → Catalog → Prop} (herror : E c)
    (hnested : ∀ name owner, hintedName? hint? info.title? = some name → placement = .inline →
      site.context.parent? = some owner →
      Q { package := owner.package, name, owner? := some owner.name }
        (c.nest owner.key (enumDecl name info content owner.package (some owner.name))))
    (hinserted : ∀ name found, hintedName? hint? info.title? = some name →
      placement = .separate ∨ site.context.parent? = none →
      separateEnumName s c name content.fingerprint site = .ok found →
      c.enums.table.get? ⟨site.package, found⟩ = none →
      Q { package := site.package, name := found }
        (c.addEnum (enumDecl found info content site.package none)))
    (hreused : ∀ name found, hintedName? hint? info.title? = some name →
      placement = .separate ∨ site.context.parent? = none →
      separateEnumName s c name content.fingerprint site = .ok found →
      c.enums.table.get? ⟨site.package, found⟩ = some content.fingerprint →
      Q { package := site.package, name := found } c) :
    Outcome (declareEnum s hint? info content site placement) c Q E := by
  unfold declareEnum
  cases hname : hintedName? hint? info.title? with
  | none => exact .malformed herror
  | some name =>
    have hseparate (h : placement = .separate ∨ site.context.parent? = none) :
        Outcome (declareSeparateEnum s name info content site) c Q E :=
      declareSeparateEnum_outcome herror (hinserted name · hname h) (hreused name · hname h)
    cases hplacement : placement with
    | separate => exact hseparate (.inl hplacement)
    | inline =>
      cases hparent : site.context.parent? with
      | none => exact hseparate (.inr hparent)
      | some owner =>
        have h := hnested name owner hname hplacement hparent
        exact .bind (.modifyCatalog (Q := fun _ c' => Q _ c') h) fun _ _ h => .pure h

end Resolution

end ThingTypes
