import Mathlib.Data.List.Basic
import ThingTypes.Generation.Assembly
import ThingTypes.Proofs.Generation.DigestedTexts
import ThingTypes.Proofs.Json.Sorted
import ThingTypes.Proofs.Resolution.Closure

/-
  A model that is built is closed: every type that it mentions anywhere is declared in it.
  Attributes, actions and features are declared in packages below that of the Thing, which is
  therefore still empty when the class of the Thing gets its name.

  An interface of actions holds a name without being declared. Two features may share a package, so
  the name may be met again by the types of the second one; it is never mistaken for one of these.
-/

namespace ThingTypes

/-! ## Interfaces of actions -/

namespace Catalog

/-- The catalog with a name held by something that is not declared. -/
def holdName (c : Catalog) (key : TypeKey) (fingerprint : Fingerprint) : Catalog :=
  { c with
    classes := { c.classes with table := c.classes.table.insert key fingerprint } }

variable {c : Catalog} {s : ResolutionSettings} {outer text : String} {key : TypeKey}

theorem table_holdName (c : Catalog) (key k : TypeKey) (fingerprint : Fingerprint) :
    (c.holdName key fingerprint).classes.table.get? k =
      if k = key then some fingerprint else c.classes.table.get? k :=
  c.classes.table.get?_insert k key fingerprint

theorem Retains.holdName (fingerprint : Fingerprint) : Retains c (c.holdName key fingerprint) :=
  ⟨fun h => ⟨_, h, fun _ => id⟩, id, id⟩

theorem Named.holdName (hc : c.Named) (hfree : c.IsFree key) (fingerprint : Fingerprint) :
    (c.holdName key fingerprint).Named where
  class_held {k d} h := by
    have hk : k ≠ key := by
      rintro rfl
      have hnone := hc.class?_of_free hfree.1
      rw [show c.classes.class? k = some d from h] at hnone
      cases hnone
    rw [table_holdName, if_neg hk]
    exact hc.class_held h
  alias_held {k a} h := by
    have hk : k ≠ key := by
      rintro rfl
      have hnone := hc.alias?_of_free hfree.1
      rw [show c.classes.alias? k = some a from h] at hnone
      cases hnone
    rw [table_holdName, if_neg hk]
    exact hc.alias_held h
  apart := hc.apart
  enum_held := hc.enum_held
  enum_apart {k} h := by
    have hk : k ≠ key := fun hk => h (hk ▸ hfree.2)
    rw [table_holdName, if_neg hk]
    exact hc.enum_apart h

theorem Linked.holdName (hc : c.Linked s outer) (hfree : c.IsFree key)
    (hdeeper : outer.length < key.package.length) (htext : IsInterfaceText text) :
    (c.holdName key (s.digest text)).Linked s outer where
  toNamed := hc.toNamed.holdName hfree _
  toLabelled := ⟨hc.class_label, hc.alias_label⟩
  accounted {k f} h := by
    rw [table_holdName] at h
    split at h
    · cases h
      exact .inr ⟨text, htext, rfl⟩
    · exact hc.accounted h
  toClosed :=
    ⟨fun h => (hc.classes h).retained (.holdName _), fun h => (hc.aliases h).retained (.holdName _)⟩
  beneath {k} h := by
    rw [table_holdName] at h
    split at h
    · rename_i hk
      rw [hk]
      exact hdeeper
    · exact hc.beneath h
  separate := hc.separate

end Catalog

structure ActionMethod.IsPlain (method : ActionMethod) : Prop where
  input : ∀ type ∈ method.input?, type.IsPlain
  output : ∀ type ∈ method.output?, type.IsPlain

structure ActionMethod.Closed (placement : EnumPlacement) (c : Catalog) (method : ActionMethod) :
    Prop where
  input : ∀ type ∈ method.input?, type.HeldIn placement c
  output : ∀ type ∈ method.output?, type.HeldIn placement c

theorem ActionMethod.Closed.retained {placement : EnumPlacement} {c c' : Catalog}
    {method : ActionMethod} (h : method.Closed placement c) (hkept : c.Retains c') :
    method.Closed placement c' :=
  ⟨fun type hmem => (h.input type hmem).retained hkept,
    fun type hmem => (h.output type hmem).retained hkept⟩

/-- All types of an interface are held. -/
def ActionInterface.Closed (placement : EnumPlacement) (c : Catalog) (i : ActionInterface) : Prop :=
  ∀ method ∈ i.methods, method.Closed placement c

structure FeatureModel.Closed (placement : EnumPlacement) (c : Catalog) (feature : FeatureModel) :
    Prop where
  featureClass : c.HoldsClass feature.featureClass
  actions : ∀ i ∈ feature.actions?, i.Closed placement c

theorem FeatureModel.Closed.retained {placement : EnumPlacement} {c c' : Catalog}
    {feature : FeatureModel} (h : feature.Closed placement c) (hkept : c.Retains c') :
    feature.Closed placement c' where
  featureClass := h.featureClass.retained hkept
  actions i hi method hmem := (h.actions i hi method hmem).retained hkept

/-- Nothing in the model mentions a type that is not declared. -/
structure GeneratedModel.Closed (placement : EnumPlacement) (model : GeneratedModel) : Prop where
  catalog : model.catalog.Closed placement
  thing : model.catalog.HoldsClass model.thing
  attributes : ∀ type ∈ model.attributes?, model.catalog.HoldsClass type
  actions : ∀ i ∈ model.actions?, i.Closed placement model.catalog
  features : ∀ feature ∈ model.features, feature.Closed placement model.catalog

namespace Assembly

open Resolution Catalog

theorem exists_intercalate_append (separator last : List Char) (texts : List (List Char)) :
    ∃ before, separator.intercalate (texts ++ [last]) = before ++ last := by
  induction texts with
  | nil => exact ⟨[], List.intercalate_singleton⟩
  | cons text rest ih =>
    obtain ⟨before, h⟩ := ih
    obtain ⟨next, tail, hnext⟩ : ∃ next tail, rest ++ [last] = next :: tail :=
      List.exists_cons_of_ne_nil (by simp)
    refine ⟨text ++ separator ++ before, ?_⟩
    rw [List.cons_append, hnext, List.intercalate_cons_cons, ← hnext, h]
    simp only [List.append_assoc]

theorem isInterfaceText_arrow {output : String} (h : Plain output) (before : String) :
    IsInterfaceText (before ++ ("->" ++ output)) := by
  constructor
  · simp
  · rw [String.toList_append, List.getLast?_append_of_ne_nil _ (by simp)]
    intro hlast
    have hbrace := List.mem_of_getLast? hlast
    rw [String.toList_append, List.mem_append] at hbrace
    rcases hbrace with hbrace | hbrace
    · simp at hbrace
    · exact (h _ hbrace).2 rfl

theorem isInterfaceText_join {texts : List String} (hne : texts ≠ [])
    (h : ∀ text ∈ texts, IsInterfaceText text) : IsInterfaceText (";".intercalate texts) := by
  obtain ⟨init, last, rfl⟩ := texts.eq_nil_or_concat'.resolve_left hne
  have hlast := h last (by simp)
  obtain ⟨before, hbefore⟩ := exists_intercalate_append ";".toList last.toList
    (init.map String.toList)
  have htext : (";".intercalate (init ++ [last])).toList = before ++ last.toList := by
    rw [← hbefore, String.toList_intercalate, List.map_append, List.map_singleton]
  refine ⟨?_, ?_⟩
  · rw [htext]
    exact List.mem_append_right _ hlast.1
  · rw [htext, List.getLast?_append_of_ne_nil _ (List.ne_nil_of_mem hlast.1)]
    exact hlast.2

/-- The description of actions tells them from classes and aliases. -/
theorem isInterfaceText_of_methods {methods : List ActionMethod} (hne : methods ≠ [])
    (hplain : ∀ method ∈ methods, method.IsPlain) :
    IsInterfaceText (Fingerprint.memberText (interfaceMembers methods)) := by
  have hperm := sortBy_perm textLE ((interfaceMembers methods).map fun member =>
    member.1 ++ ":" ++ member.2)
  refine isInterfaceText_join (fun hnil => ?_) fun entry hmem => ?_
  · rw [hnil] at hperm
    simpa [interfaceMembers, hne] using hperm.symm.eq_nil
  · obtain ⟨member, hmember, rfl⟩ := List.mem_map.mp (hperm.mem_iff.mp hmem)
    obtain ⟨method, hmethod, rfl⟩ := List.mem_map.mp hmember
    have houtput : Plain (method.output?.getD .unit).signature := by
      cases htype : method.output? with
      | none => decide
      | some type => exact ((hplain method hmethod).output type htype).plain_signature
    have htext := isInterfaceText_arrow houtput
      (method.jsonName ++ ":" ++ (method.input?.getD .unit).signature)
    simpa only [String.append_assoc] using htext

/-! ## Declarations -/

/-- The catalog has gone on in good order: what was held is still held. -/
structure Proceeds (s : ResolutionSettings) (outer : String) (c c' : Catalog) : Prop where
  linked : c'.Linked s outer
  kept : c.Retains c'

section Runs

variable {s : ResolutionSettings} {outer package : String} {context : NamingContext}
  {c c' c'' : Catalog}

theorem Proceeds.refl (hc : c.Linked s outer) : Proceeds s outer c c := ⟨hc, .refl c⟩

theorem Proceeds.trans (h : Proceeds s outer c c') (h' : Proceeds s outer c' c'') :
    Proceeds s outer c c'' :=
  ⟨h'.linked, h.kept.trans h'.kept⟩

/-- What is resolved in a package outside of all classes: the package is below the outer one. -/
structure AtRoot (outer package : String) (context : NamingContext) : Prop where
  deeper : outer.length < package.length
  package : Plain package
  parent : context.parent? = none
  feature : ∀ feature ∈ context.feature?, NameText feature

theorem AtRoot.isOpen (h : AtRoot outer package context) (path : String) :
    Open outer { package, context, path } c :=
  ⟨⟨h.deeper, h.package, by simp [h.parent], h.feature⟩, by simp [h.parent]⟩

variable (hdigest : Function.Injective s.digest) (hroot : AtRoot outer package context)

section Resolved

include hdigest hroot

theorem resolveField_proceeds (hc : c.Linked s outer) (field : String) (node : SchemaNode) :
    Resolution.Outcome (resolveField s field node package context) c
      (fun type c' => Proceeds s outer c c' ∧ type.IsPlain ∧ type.HeldIn s.placement c')
      fun _ => True := by
  refine ((typeAt_growing _ node _).outcome
    ((links hdigest node).ofType _ _ hc (hroot.isOpen field))).imp ?_
  rintro type c' ⟨hgrows, htype⟩
  exact ⟨⟨htype.linked, hgrows.retains hc.toNamed⟩, htype.plain, htype.held⟩

theorem resolveClass_proceeds (hc : c.Linked s outer) (name : String) (node : SchemaNode) :
    Resolution.Outcome (resolveClass s name node package context) c
      (fun type c' => Proceeds s outer c c' ∧ c'.HoldsClass type) fun _ => True := by
  refine ((classAt_growing name node _).outcome
    ((links hdigest node).ofClass _ _ hc (hroot.isOpen name))).imp ?_
  rintro type c' ⟨hgrows, htype⟩
  exact ⟨⟨htype.linked, hgrows.retains hc.toNamed⟩, htype.held⟩

omit hdigest in
theorem resolveSeparateEnum_proceeds (hc : c.Linked s outer) (name : String) (node : SchemaNode) :
    Resolution.Outcome (resolveSeparateEnum s name node package context) c
      (fun _ c' => Proceeds s outer c c') fun _ => True := by
  have h : Resolution.Outcome (resolveSeparateEnum s name node package context) c
      (fun _ c' => c'.Linked s outer) fun _ => True :=
    resolveSeparateEnum_outcome trivial fun _ _ _ _ =>
      (declareEnum_links hc (hroot.isOpen name) fun _ => rfl).imp fun _ _ h => h.linked
  refine ((resolveSeparateEnum_growing name node package context).outcome h).imp ?_
  rintro type c' ⟨hgrows, hc'⟩
  exact ⟨hc', hgrows.retains hc.toNamed⟩

theorem payloadType_proceeds (hc : c.Linked s outer) (schema? : Option Json)
    (fallback path : String) :
    Resolution.Outcome (payloadType s schema? fallback path package context) c
      (fun type? c' => Proceeds s outer c c' ∧ (∀ type ∈ type?, type.IsPlain) ∧
        ∀ type ∈ type?, type.HeldIn s.placement c') fun _ => True := by
  unfold payloadType
  cases schema? with
  | none => exact .pure ⟨.refl hc, nofun, nofun⟩
  | some schema =>
    refine .bind (.liftExcept (Q := fun _ c' => c = c') (fun _ _ => rfl) trivial) ?_
    rintro node _ rfl
    refine .bind (resolveField_proceeds hdigest hroot hc _ node) ?_
    rintro type c' ⟨hproceeds, hplain, hheld⟩
    refine .pure ⟨hproceeds, ?_, ?_⟩
    · rintro _ ⟨⟩
      exact hplain
    · rintro _ ⟨⟩
      exact hheld

/-! ## Actions -/

theorem actionMethod_proceeds (hc : c.Linked s outer) (name : String) (action : ActionAffordance) :
    Resolution.Outcome (actionMethod s package context name action) c
      (fun method c' => Proceeds s outer c c' ∧ method.IsPlain ∧ method.Closed s.placement c')
      fun _ => True := by
  unfold actionMethod
  refine .bind (payloadType_proceeds hdigest hroot hc _ _ _) ?_
  rintro input? c₁ ⟨hinput, hplain, hheld⟩
  refine .bind (payloadType_proceeds hdigest hroot hinput.linked _ _ _) ?_
  rintro output? c₂ ⟨houtput, hplain', hheld'⟩
  have hinputHeld : ∀ type ∈ input?, type.HeldIn s.placement c₂ := fun type hmem =>
    (hheld type hmem).retained houtput.kept
  exact .pure ⟨hinput.trans houtput, ⟨hplain, hplain'⟩, ⟨hinputHeld, hheld'⟩⟩

theorem actionMethods_proceeds (actions : List (String × ActionAffordance)) :
    ∀ {c : Catalog}, c.Linked s outer →
      Resolution.Outcome (actionMethods s package context actions) c
        (fun methods c' => Proceeds s outer c c' ∧ methods.length = actions.length ∧
          (∀ method ∈ methods, method.IsPlain) ∧ ∀ method ∈ methods, method.Closed s.placement c')
        fun _ => True := by
  induction actions with
  | nil => exact fun hc => .pure ⟨.refl hc, rfl, nofun, nofun⟩
  | cons action rest ih =>
    intro c hc
    rw [actionMethods]
    refine .bind (actionMethod_proceeds hdigest hroot hc _ _) ?_
    rintro method c₁ ⟨hmethod, hplain, hclosed⟩
    refine .bind (ih hmethod.linked) ?_
    rintro methods c₂ ⟨hmethods, hlength, hplains, hcloseds⟩
    have hclosed₂ := hclosed.retained hmethods.kept
    exact .pure ⟨hmethod.trans hmethods, by simp [hlength],
      List.forall_mem_cons.mpr ⟨hplain, hplains⟩, List.forall_mem_cons.mpr ⟨hclosed₂, hcloseds⟩⟩

end Resolved

include hdigest

/-- An interface holds its name from now on, or shares it with one of the same description. -/
theorem declareActions_proceeds (hc : c.Linked s outer) {feature? : Option String}
    (hdeeper : outer.length < package.length) (hpackage : Plain package)
    (hfeature : ∀ feature ∈ feature?, NameText feature)
    (actions : OrderedMap String ActionAffordance) (owner : String) :
    Resolution.Outcome (declareActions s actions owner package feature?) c
      (fun i? c' => Proceeds s outer c c' ∧ ∀ i ∈ i?, i.Closed s.placement c')
      fun _ => True := by
  have hroot : AtRoot outer package { role := .other, feature? } :=
    ⟨hdeeper, hpackage, rfl, hfeature⟩
  unfold declareActions
  split
  · exact .pure ⟨.refl hc, nofun⟩
  · rename_i hactions
    dsimp only
    refine .bind (resolveSeparateEnum_proceeds hroot hc _ _) ?_
    intro actionEnum c₁ henum
    refine .bind (actionMethods_proceeds hdigest hroot _ henum.linked) ?_
    rintro methods c₂ ⟨hmethods, hlength, hplain, hclosed⟩
    have hne : methods ≠ [] := by
      rintro rfl
      have hentries : actions.entries = [] := List.length_eq_zero_iff.mp hlength.symm
      simp [OrderedMap.isEmpty, hentries] at hactions
    have hproceeds := henum.trans hmethods
    refine .bind (claimCandidate_outcome (Q := fun claim? c' => claim? ≠ none →
      Proceeds s outer c c' ∧ ∀ method ∈ methods, method.Closed s.placement c')
      (fun h => absurd rfl h) (fun _ _ _ _ _ => ⟨hproceeds, hclosed⟩) ?_) ?_
    · intro found _ _ hfree _
      have hlinked := hmethods.linked.holdName hfree hdeeper
        (isInterfaceText_of_methods hne hplain)
      have hkept : c₂.Retains (c₂.holdName ⟨package, found⟩
          (.ofMembers s.digest (interfaceMembers methods))) := .holdName _
      exact ⟨hproceeds.trans ⟨hlinked, hkept⟩,
        fun method hmem => (hclosed method hmem).retained hkept⟩
    · rintro (_ | claim) c₃ h
      · exact .throw trivial
      · obtain ⟨hproceeds', hclosed'⟩ := h nofun
        refine .pure ⟨hproceeds', ?_⟩
        rintro _ ⟨⟩
        exact hclosed'

end Runs

/-! ## Things -/

theorem length_lt_child (package segment : String) :
    package.length < (Package.child package segment).length := by
  rw [Package.child, String.length_append, String.length_append]
  exact Nat.lt_add_right _ (Nat.lt_succ_self _)

section Things

/-- The class of a Thing. -/
def thingDecl (s : ResolutionSettings) (model : ThingModel) (fields : List FieldDecl)
    (type : TypeName) : ClassDecl :=
  (ClassDecl.ofSchema type
    (.ofMembers s.digest (fields.map fun f => (f.jsonName, f.type.signature))) .plain .other
    { title? := model.title?, description? := model.description? }).withFields fields

variable {s : ResolutionSettings} {package : String} {c : Catalog}

/-- In a package without names, the class of the Thing is added under a new one. -/
theorem declareThing_outcome (hnew : ∀ name, c.classes.table.get? ⟨package, name⟩ = none)
    (model : ThingModel) (name : String) (fields : List FieldDecl) :
    Resolution.Outcome (declareThing s model name package fields) c
      (fun type c' => type.IsTopLevel package ∧
        (∃ taken, type.name ∈ Identifier.searchCandidates name none none taken) ∧
        c.IsFree type.key ∧ c' = c.addClass (thingDecl s model fields type)) fun _ => True := by
  unfold declareThing
  dsimp only
  refine .bind (claimCandidate_outcome (Q := fun claim? c' => ∀ claim ∈ claim?,
    claim.existing = false ∧
      (∃ taken, claim.name ∈ Identifier.searchCandidates name none none taken) ∧
      c.IsFree ⟨package, claim.name⟩ ∧
      c' = c.holdName ⟨package, claim.name⟩
        (thingDecl s model fields { package, name := claim.name }).fingerprint) nofun ?_ ?_) ?_
  · intro found _ _ hheld
    rw [hnew found] at hheld
    cases hheld
  · rintro found _ hmem hfree _ ⟨⟩
    exact ⟨rfl, ⟨_, hmem⟩, hfree, rfl⟩
  · rintro (_ | claim) c' h
    · exact .throw trivial
    · obtain ⟨hnew, hcandidate, hfree, rfl⟩ := h claim rfl
      simp only [hnew, Bool.false_eq_true, if_false]
      refine .bind (.modifyCatalog (Q := fun _ c' =>
        c' = c.addClass (thingDecl s model fields { package, name := claim.name })) rfl) ?_
      rintro _ _ rfl
      exact .pure ⟨⟨rfl, rfl⟩, hcandidate, hfree, rfl⟩

variable (hdigest : Function.Injective s.digest) (hpackage : Plain package)
include hdigest hpackage

theorem declareAttributes_proceeds (hc : c.Linked s package) (model : ThingModel) :
    Resolution.Outcome (declareAttributes s model package) c
      (fun type? c' => Proceeds s package c c' ∧ ∀ type ∈ type?, c'.HoldsClass type)
      fun _ => True := by
  have hroot : AtRoot package (Package.child package "attributes") { role := .thingAttribute } :=
    ⟨length_lt_child _ _, Package.plain_child hpackage (by decide), rfl, nofun⟩
  unfold declareAttributes
  split
  · exact .pure ⟨.refl hc, nofun⟩
  · refine .bind (.liftExcept (Q := fun _ c' => c = c') (fun _ _ => rfl) trivial) ?_
    rintro properties _ rfl
    refine .bind (resolveClass_proceeds hdigest hroot hc _ _) ?_
    rintro type c' ⟨hproceeds, hheld⟩
    refine .pure ⟨hproceeds, ?_⟩
    rintro _ ⟨⟩
    exact hheld

theorem declareFeature_proceeds (hc : c.Linked s package) (feature : LoadedFeature) :
    Resolution.Outcome (declareFeature s package feature) c
      (fun feature c' => Proceeds s package c c' ∧ feature.Closed s.placement c')
      fun _ => True := by
  unfold declareFeature
  refine .bind (.liftExcept (Q := fun _ c' => c = c') (fun _ _ => rfl) trivial) ?_
  rintro name _ rfl
  dsimp only
  -- The feature has a package of its own, and its actions have one below.
  generalize hinner : Package.child (Package.child package "features")
    (Identifier.packageSegment name) = inner
  have hdeeper : package.length < inner.length := by
    rw [← hinner]
    exact Nat.lt_trans (length_lt_child _ _) (length_lt_child _ _)
  have hplain : Plain inner := by
    rw [← hinner]
    exact Package.plain_child (Package.plain_child hpackage (by decide))
      (Identifier.plain_packageSegment name)
  have hname : ∀ feature ∈ some (Identifier.className name), NameText feature := by
    rintro _ ⟨⟩
    exact Identifier.nameText_className name
  refine .bind (.liftExcept (Q := fun _ c' => c = c') (fun _ _ => rfl) trivial) ?_
  rintro node _ rfl
  refine .bind (resolveClass_proceeds hdigest ⟨hdeeper, hplain, rfl, hname⟩ hc _ _) ?_
  rintro featureClass c₁ ⟨hproceeds, hheld⟩
  refine .bind (declareActions_proceeds hdigest hproceeds.linked
    (Nat.lt_trans hdeeper (length_lt_child _ _)) (Package.plain_child hplain (by decide)) hname
    _ _) ?_
  rintro actions? c₂ ⟨hproceeds', hactions⟩
  exact .pure ⟨hproceeds.trans hproceeds', hheld.retained hproceeds'.kept, hactions⟩

theorem declareFeatures_proceeds (features : List LoadedFeature) :
    ∀ {c : Catalog}, c.Linked s package →
      Resolution.Outcome (declareFeatures s package features) c
        (fun declared c' => Proceeds s package c c' ∧
          ∀ feature ∈ declared, feature.Closed s.placement c') fun _ => True := by
  induction features with
  | nil => exact fun hc => .pure ⟨.refl hc, nofun⟩
  | cons feature rest ih =>
    intro c hc
    rw [declareFeatures]
    refine .bind (declareFeature_proceeds hdigest hpackage hc feature) ?_
    rintro declared c₁ ⟨hproceeds, hclosed⟩
    refine .bind (ih hproceeds.linked) ?_
    rintro others c₂ ⟨hproceeds', hcloseds⟩
    exact .pure ⟨hproceeds.trans hproceeds',
      List.forall_mem_cons.mpr ⟨hclosed.retained hproceeds'.kept, hcloseds⟩⟩

omit hdigest hpackage in
/-- All other names are in deeper packages, so the class of the Thing is new. -/
theorem declareThing_closed (hc : c.Linked s package) (model : ThingModel) (name : String)
    {fields : List FieldDecl} (hfields : ∀ field ∈ fields, field.type.HeldIn s.placement c) :
    Resolution.Outcome (declareThing s model name package fields) c
      (fun type c' => c.Retains c' ∧ c'.Closed s.placement ∧ c'.HoldsClass type)
      fun _ => True := by
  have hnew : ∀ name, c.classes.table.get? ⟨package, name⟩ = none := fun name => by
    by_contra hheld
    exact absurd (hc.beneath hheld) (Nat.lt_irrefl _)
  refine (declareThing_outcome hnew model name fields).imp ?_
  rintro type c' ⟨⟨rfl, howner⟩, -, hfree, rfl⟩
  have hkept : c.Retains (c.addClass (thingDecl s model fields type)) :=
    .addClass (hc.class?_of_free hfree.1)
  refine ⟨hkept, ⟨fun {k d} h => ?_, fun h => (hc.aliases h).retained hkept⟩, howner, ?_⟩
  · rw [class?_addClass] at h
    split at h
    · cases h
      exact ⟨fun field hmem => (hfields field hmem).retained hkept, nofun, nofun, nofun⟩
    · exact (hc.classes h).retained hkept
  · exact ne_of_eq_of_ne (class?_addClass_self c (thingDecl s model fields type)) nofun

theorem declareAll_closed (thing : LoadedThing) :
    Resolution.Outcome (declareAll s thing package) {} (fun model _ => model.Closed s.placement)
      fun _ => True := by
  unfold declareAll
  dsimp only
  refine .bind (declareAttributes_proceeds hdigest hpackage (linked_empty s package) _) ?_
  rintro attributes? c₁ ⟨hproceeds, hattributes⟩
  have hnone : ∀ feature ∈ (none : Option String), NameText feature := nofun
  refine .bind (declareActions_proceeds hdigest hproceeds.linked (length_lt_child _ _)
    (Package.plain_child hpackage (by decide)) hnone _ _) ?_
  rintro actions? c₂ ⟨hproceeds', hactions⟩
  refine .bind (declareFeatures_proceeds hdigest hpackage _ hproceeds'.linked) ?_
  rintro features c₃ ⟨hproceeds'', hfeatures⟩
  have hattributes₃ : ∀ type ∈ attributes?, c₃.HoldsClass type := fun type hmem =>
    (hattributes type hmem).retained (hproceeds'.trans hproceeds'').kept
  have hfields : ∀ field ∈ thingFields attributes? features,
      field.type.HeldIn s.placement c₃ := by
    intro field hmem
    rcases List.mem_append.mp hmem with hmem | hmem
    · obtain ⟨type, htype, rfl⟩ := Option.map_eq_some_iff.mp (Option.mem_toList.mp hmem)
      exact hattributes₃ type htype
    · obtain ⟨feature, hfeature, rfl⟩ := List.mem_map.mp hmem
      exact (hfeatures feature hfeature).featureClass
  refine .bind (declareThing_closed hproceeds''.linked _ _ hfields) ?_
  rintro type c₄ ⟨hkept, hclosed, hheld⟩
  refine .get fun st hst => .pure ?_
  subst hst
  exact {
    catalog := hclosed
    thing := hheld
    attributes := fun type hmem => (hattributes₃ type hmem).retained hkept
    actions := fun i hi method hmem =>
      (hactions i hi method hmem).retained (hproceeds''.kept.trans hkept)
    features := fun feature hmem => (hfeatures feature hmem).retained hkept }

end Things

end Assembly

/-! ## Builds -/

/-- What is known of how the types of a Thing are declared is known of its model. -/
theorem GeneratedModel.of_declareAll {s : ResolutionSettings} {thing : LoadedThing}
    {package : String} {model : GeneratedModel} {P : GeneratedModel → Prop}
    (hall : Resolution.Outcome (Assembly.declareAll s thing package) {} (fun model _ => P model)
      fun _ => True)
    (h : GeneratedModel.ofThing s thing package = .ok model) : P model := by
  have hall : Resolution.Outcome (Assembly.declareAll s thing package)
    ({} : ResolutionState).catalog _ _ := hall
  unfold ofThing at h
  split at h
  · rename_i hrun
    cases h
    exact hall.of_ok hrun
  · cases h

theorem GeneratedModel.ofThing_closed {s : ResolutionSettings}
    (hdigest : Function.Injective s.digest) {package : String} (hpackage : Package.isValid package)
    {thing : LoadedThing} {model : GeneratedModel}
    (h : GeneratedModel.ofThing s thing package = .ok model) : model.Closed s.placement :=
  of_declareAll (Assembly.declareAll_closed hdigest (Package.plain_of_isValid hpackage) thing) h

/-- Whatever is loaded, by whatever kind of loader, a model that is built is closed: each type of a
field, an alternative, a map value, an alias or an action, each sealed parent, and each class of the
Thing and its features is declared in the model. The build is a computation whose results are known
to have this property. -/
theorem GeneratedModel.build_closed {m : Type → Type} [Monad m] [LawfulMonad m] {load : Loader m}
    {o : GenerationOptions} {s : ResolutionSettings} {location package : String}
    (hdigest : DigestsApart load o s location package) :
    ∃ built : m {result : Except GenerationError GeneratedModel //
        ∀ model, result = .ok model → model.Closed s.placement},
      Subtype.val <$> built = GeneratedModel.build load o s location package := by
  have hclosed : Yields (fun result => ∀ model, result = .ok model → model.Closed s.placement)
      (GeneratedModel.build load o s location package) := by
    refine yields_build_of_digestsApart hdigest fun {other} hother hvalid thing model hmodel => ?_
    exact ofThing_closed (s := s.withDigest other) hother hvalid hmodel
  exact hclosed

/-- A Thing with an enum among its properties and an object as the input of its action. -/
def lampDocument : Json :=
  .object [
    ("title", .string "Lamp"),
    ("properties", .object [
      ("mode", .object [
        ("type", .string "string"), ("enum", .array [.string "on", .string "off"])])]),
    ("actions", .object [
      ("fade", .object [
        ("input", .object [
          ("type", .string "object"),
          ("properties", .object [("level", .object [("type", .string "integer")])])])])])]

/-- The Thing, built from memory with separate enums. -/
def lampBuild : Id (Except GenerationError GeneratedModel) :=
  GeneratedModel.build (Loader.ofDocuments [("lamp.json", lampDocument)]) {}
    { placement := .separate } "lamp.json" "p"

theorem lampBuild_closed : ∃ model, lampBuild = .ok model ∧
    model.catalog.classes.table.keys.map TypeKey.display =
      ["p.attributes.Attributes", "p.actions.FadeInput", "p.actions.LampActions", "p.Lamp"] ∧
    model.Closed .separate := by
  have hrun : (match lampBuild with
      | .ok model => model.catalog.classes.table.keys.map TypeKey.display
      | .error _ => []) =
      ["p.attributes.Attributes", "p.actions.FadeInput", "p.actions.LampActions", "p.Lamp"] := by
    decide +kernel
  have hdigest : GeneratedModel.DigestsApart
      (Loader.ofDocuments [("lamp.json", lampDocument)] : Loader Id) {} { placement := .separate }
      "lamp.json" "p" := GeneratedModel.digestsApart_of_memory (by decide +kernel)
  obtain ⟨built, hbuilt⟩ := GeneratedModel.build_closed hdigest
  cases h : lampBuild with
  | error e => simp [h] at hrun
  | ok model =>
    rw [h] at hrun
    exact ⟨model, rfl, hrun, built.2 model (hbuilt.trans h)⟩

end ThingTypes
