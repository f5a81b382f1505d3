import ThingTypes.Proofs.Generation.Declarations
import ThingTypes.Proofs.Kotlin.Imports
import ThingTypes.Proofs.Resolution.Homes
import ThingTypes.Proofs.Schema.Reading

/-
  Whether the names in the files of a build are told apart. Names are given package by package, and
  most files mention types of their own package only. There are two kinds of files that mix packages:
  the one of the Thing, whose attributes and features have packages of their own, and the ones of the
  classes of features, whose properties have. These are the files in which one name can mean two
  types.
-/

namespace ThingTypes

open Resolution Catalog

/-! ## Mentions -/

/-- The type is at the top level. -/
structure TypeName.StandsAlone (type : TypeName) : Prop where
  owner : type.owner? = none
  name : IsName type.name

/-- The interface mentions types of its own package only. -/
def ActionInterface.Near (i : ActionInterface) : Prop :=
  ∀ type ∈ i.mentioned, type.Near i.package none

structure FeatureModel.Near (f : FeatureModel) : Prop where
  featureClass : f.featureClass.StandsAlone
  actions : ∀ i ∈ f.actions?, i.Near

namespace Assembly

/-! ## Homes -/

/-- The package in which the members of the classes of a package are resolved. -/
def homePackage (package q : String) : String :=
  if q = featurePackage package (segmentOf package q) then q ++ ".properties" else q

variable {package : String} {segment : String}

/-- A package right below that of the Thing is none of a feature. -/
theorem homePackage_own {name : String} (hname : '.' ∉ name.toList) :
    homePackage package (Package.child package name) = Package.child package name := by
  refine if_neg fun h => hname ?_
  have hchars : name.toList = "features.".toList ++
      (segmentOf package (Package.child package name)).toList := by
    simpa [Package.child, featurePackage] using congrArg String.toList h
  rw [hchars]
  exact List.mem_append_left _ (by decide)

section Segment

variable (package) (hsegment : Package.isSegment segment.toList)
include hsegment

theorem homePackage_feature : homePackage package (featurePackage package segment) =
    featurePackage package segment ++ ".properties" := by
  have hbare : ("" : String).toList.takeWhile (· != '.') = [] := rfl
  have h := segmentOf_append package hsegment hbare
  rw [String.append_empty] at h
  rw [homePackage, h, if_pos rfl]

theorem homePackage_below {rest : String} (hne : rest ≠ "")
    (hrest : rest.toList.takeWhile (· != '.') = []) :
    homePackage package (featurePackage package segment ++ rest) =
      featurePackage package segment ++ rest := by
  rw [homePackage, segmentOf_append package hsegment hrest]
  exact if_neg (by simpa using hne)

theorem homePackage_properties :
    homePackage package (featurePackage package segment ++ ".properties") =
      featurePackage package segment ++ ".properties" :=
  homePackage_below package hsegment (by decide) rfl

theorem homePackage_actions :
    homePackage package (Package.child (featurePackage package segment) "actions") =
      Package.child (featurePackage package segment) "actions" := by
  rw [Package.child, String.append_assoc]
  exact homePackage_below package hsegment (by decide) rfl

end Segment

/-! ## Declarations -/

variable {s : ResolutionSettings} {q : String} {context : NamingContext} {c : Catalog}
  {roots : List TypeKey}

section Root

/-- A package below the one of the Thing whose classes are at home, outside of all classes. -/
structure SettledRoot (package q : String) (context : NamingContext) : Prop where
  root : AtRoot package q context
  home : homePackage package q = q
  role : context.role ≠ .feature

theorem SettledRoot.atHome (h : SettledRoot package q context) (path : String) :
    AtHome (homePackage package) package { package := q, context, path } := by
  refine ⟨(h.root.isOpen (c := {}) path).beneath, h.home, ?_⟩
  rw [Site.innerPackage]
  split
  · exact absurd ‹_› h.role
  · rfl

variable (hroot : SettledRoot package q context)
include hroot

theorem payloadType_near (hc : c.Homed (homePackage package) roots) (schema? : Option Json)
    (fallback path : String) :
    Resolution.Outcome (payloadType s schema? fallback path q context) c
      (fun type? c' => (∀ type ∈ type?, type.Near q none) ∧ c'.Homed (homePackage package) roots)
      fun _ => True := by
  unfold payloadType
  cases schema? with
  | none => exact .pure ⟨nofun, hc⟩
  | some schema =>
    refine .bind (.liftExcept (Q := fun _ c' => c = c') (fun _ _ => rfl) trivial) ?_
    rintro node _ rfl
    refine .bind ((findsHome s _ _ node).ofType _ _ (hroot.atHome _) hc) ?_
    rintro type c' ⟨htype, hc'⟩
    refine .pure ⟨?_, hc'⟩
    rintro _ ⟨⟩
    have hparent : context.parent? = none := hroot.root.parent
    exact htype.of_package (by simp [hparent])

theorem actionMethods_near (actions : List (String × ActionAffordance)) :
    ∀ {c : Catalog}, c.Homed (homePackage package) roots →
      Resolution.Outcome (actionMethods s q context actions) c
        (fun methods c' => (∀ type ∈ methods.flatMap ActionMethod.mentioned, type.Near q none) ∧
          c'.Homed (homePackage package) roots) fun _ => True := by
  induction actions with
  | nil => exact fun hc => .pure ⟨nofun, hc⟩
  | cons action rest ih =>
    intro c hc
    have hmethod : Resolution.Outcome (actionMethod s q context action.1 action.2) c
        (fun method c' => (∀ type ∈ method.mentioned, type.Near q none) ∧
          c'.Homed (homePackage package) roots) fun _ => True := by
      unfold actionMethod
      refine .bind (payloadType_near hroot hc _ _ _) ?_
      rintro input? c₁ ⟨hinput, hc₁⟩
      refine .bind (payloadType_near hroot hc₁ _ _ _) ?_
      rintro output? c₂ ⟨houtput, hc₂⟩
      refine .pure ⟨fun type hmem => ?_, hc₂⟩
      rcases List.mem_append.mp hmem with hmem | hmem
      · obtain ⟨ref, href, hmem⟩ := Option.bind_eq_some_iff.mp (Option.mem_toList.mp hmem)
        exact hinput ref href type hmem
      · obtain ⟨ref, href, hmem⟩ := Option.bind_eq_some_iff.mp (Option.mem_toList.mp hmem)
        exact houtput ref href type hmem
    rw [actionMethods]
    refine .bind hmethod ?_
    rintro method c₁ ⟨hmentioned, hc₁⟩
    refine .bind (ih hc₁) ?_
    rintro methods c₂ ⟨hrest, hc₂⟩
    refine .pure ⟨?_, hc₂⟩
    rw [List.flatMap_cons]
    exact List.forall_mem_append.mpr ⟨hmentioned, hrest⟩

end Root

theorem declareActions_near {feature? : Option String}
    (hroot : SettledRoot package q { role := .other, feature? })
    (hc : c.Homed (homePackage package) roots) (actions : OrderedMap String ActionAffordance)
    (owner : String) :
    Resolution.Outcome (declareActions s actions owner q feature?) c
      (fun i? c' => (∀ i ∈ i?, i.Near) ∧ c'.Homed (homePackage package) roots)
      fun _ => True := by
  unfold declareActions
  split
  · exact .pure ⟨nofun, hc⟩
  · dsimp only
    have henum : Resolution.Outcome (resolveSeparateEnum s actionEnumName
        (actionEnumNode actions.keys) q { role := .other, feature? }) c
        (fun type c' => type.Near q none ∧ c'.Homed (homePackage package) roots) fun _ => True :=
      resolveSeparateEnum_outcome trivial fun _ _ _ _ =>
        declareEnum_homed (hroot.atHome actionEnumName).beneath hc
    refine .bind henum ?_
    rintro actionEnum c₁ ⟨henum, hc₁⟩
    refine .bind (actionMethods_near hroot actions.entries hc₁) ?_
    rintro methods c₂ ⟨hmethods, hc₂⟩
    refine .bind (claimCandidate_outcome
      (Q := fun _ c' => c'.Homed (homePackage package) roots) hc₂ (fun _ _ _ _ => hc₂)
      fun _ _ _ _ => ⟨hc₂.classes, hc₂.aliases, hc₂.settled⟩) ?_
    rintro (_ | claim) c₃ hc₃
    · exact .throw trivial
    · refine .pure ⟨?_, hc₃⟩
      rintro _ ⟨⟩
      exact List.forall_mem_cons.mpr ⟨henum, hmethods⟩

theorem declareAttributes_near (hpackage : Plain package) (model : ThingModel) :
    Resolution.Outcome (declareAttributes s model package) {}
      (fun type? c' => (∀ type ∈ type?, type.StandsAlone) ∧ c'.Homed (homePackage package) [])
      fun _ => True := by
  have hroot : SettledRoot package (Package.child package "attributes")
      { role := .thingAttribute } :=
    ⟨⟨length_lt_child _ _, Package.plain_child hpackage (by decide), rfl, nofun⟩,
      homePackage_own (by decide), nofun⟩
  have hempty := homed_empty (homePackage package) []
  unfold declareAttributes
  split
  · exact .pure ⟨nofun, hempty⟩
  · refine .bind (.liftExcept (Q := fun _ c' => {} = c') (fun _ _ => rfl) trivial) ?_
    rintro properties _ rfl
    refine .bind ((findsHome s _ _ _).ofClass _ _ (hroot.atHome _) hempty) ?_
    rintro type c' ⟨hplain, htop, hc'⟩
    refine .pure ⟨?_, hc'⟩
    rintro _ ⟨⟩
    exact ⟨htop.2, hplain.name⟩

theorem featureNode_eq_ok {model : ThingModel} {location title : String} {node : SchemaNode}
    (h : model.featureNode location title = .ok node) :
    ∃ properties required, node = .ofProperties properties required (some title) := by
  obtain ⟨nodes, -, h⟩ := exists_of_bind_eq_ok h
  dsimp only at h
  split at h
  · cases h
  · cases h
    exact ⟨_, _, rfl⟩

/-- The class of a feature is a root. -/
theorem declareFeature_near (hpackage : Plain package) (hc : c.Homed (homePackage package) roots)
    (feature : LoadedFeature) :
    Resolution.Outcome (declareFeature s package feature) c
      (fun f c' => f.Near ∧ c'.Homed (homePackage package) (f.featureClass.key :: roots))
      fun _ => True := by
  unfold declareFeature
  refine .bind (.liftExcept (Q := fun _ c' => c = c') (fun _ _ => rfl) trivial) ?_
  rintro name _ rfl
  dsimp only
  have hsegment := Identifier.isSegment_packageSegment name
  have hfeature := homePackage_feature package hsegment
  have hproperties := homePackage_properties package hsegment
  have hactions := homePackage_actions package hsegment
  have hroot : AtRoot package (featurePackage package (Identifier.packageSegment name))
      { role := .feature, feature? := some (Identifier.className name) } := by
    refine ⟨Nat.lt_trans (length_lt_child _ _) (length_lt_child _ _), Package.plain_child
      (Package.plain_child hpackage (by decide)) (Identifier.plain_packageSegment name), rfl, ?_⟩
    rintro _ ⟨⟩
    exact Identifier.nameText_className name
  unfold featurePackage at hfeature hproperties hactions hroot
  generalize Package.child (Package.child package "features") (Identifier.packageSegment name) =
    inner at *
  refine .bind (.liftExcept (Q := fun node c' => c = c' ∧
      ∃ properties required, node = .ofProperties properties required (some name))
    (fun node hnode => ⟨rfl, featureNode_eq_ok hnode⟩) trivial) ?_
  rintro _ _ ⟨rfl, properties, required, rfl⟩
  have hclass : Resolution.Outcome (resolveClass s (Identifier.className name)
      (.ofProperties properties required (some name)) inner
      { role := .feature, feature? := some (Identifier.className name) }) c
      (fun type c' => type.IsPlain ∧ type.IsTopLevel inner ∧
        c'.Homed (homePackage package) (type.key :: roots)) fun _ => True :=
    classAt_object_outcome trivial (classOf_homed (fun _ _ => findsHome s _ _ _) nofun nofun
      (hroot.isOpen (c := c) _).beneath hfeature hproperties (fun h => absurd rfl h) hc)
  refine .bind hclass ?_
  rintro featureClass c₁ ⟨hplain, htop, hc₁⟩
  refine .bind (declareActions_near ⟨⟨Nat.lt_trans hroot.deeper (length_lt_child _ _),
    Package.plain_child hroot.package (by decide), rfl, hroot.feature⟩, hactions, nofun⟩ hc₁ _ _) ?_
  rintro actions? c₂ ⟨hactions, hc₂⟩
  exact .pure ⟨⟨⟨htop.2, hplain.name⟩, hactions⟩, hc₂⟩

theorem declareFeatures_near (hpackage : Plain package) (features : List LoadedFeature) :
    ∀ {roots c}, c.Homed (homePackage package) roots →
      Resolution.Outcome (declareFeatures s package features) c
        (fun declared c' => (∀ f ∈ declared, f.Near) ∧
          c'.Homed (homePackage package) (declared.map (·.featureClass.key) ++ roots))
        fun _ => True := by
  induction features with
  | nil => exact fun hc => .pure ⟨nofun, hc⟩
  | cons feature rest ih =>
    intro roots c hc
    rw [declareFeatures]
    refine .bind (declareFeature_near hpackage hc feature) ?_
    rintro declared c₁ ⟨hdeclared, hc₁⟩
    refine .bind (ih hc₁) ?_
    rintro others c₂ ⟨hothers, hc₂⟩
    exact .pure ⟨List.forall_mem_cons.mpr ⟨hdeclared, hothers⟩, hc₂.mono List.perm_middle.subset⟩

theorem mentioned_thingDecl (s : ResolutionSettings) (model : ThingModel)
    (attributes? : Option TypeName) (features : List FeatureModel) (type : TypeName) :
    (thingDecl s model (thingFields attributes? features) type).mentioned =
      attributes?.toList ++ features.map FeatureModel.featureClass := by
  have htypes : (thingFields attributes? features).filterMap (·.type.referencedName?) =
      attributes?.toList ++ features.map FeatureModel.featureClass := by
    cases attributes? <;>
      simp [thingFields, FieldDecl.ofKey, TypeRef.referencedName?, List.filterMap_map,
        Function.comp_def]
  have hmentioned : (thingDecl s model (thingFields attributes? features) type).mentioned =
      (thingFields attributes? features).filterMap (·.type.referencedName?) := by
    generalize thingFields attributes? features = fields
    cases fields <;>
      simp [ClassDecl.mentioned, thingDecl, ClassDecl.withFields, ClassDecl.ofSchema]
  rw [hmentioned, htypes]

end Assembly

/-! ## Models -/

namespace GeneratedModel

/-- The Thing, its attributes and its features: what the file of the Thing names. -/
def parts (model : GeneratedModel) : List TypeName :=
  model.thing :: (model.attributes?.toList ++ model.features.map FeatureModel.featureClass)

/-- Where the types stand that the declarations of a model mention. -/
structure Homed (package : String) (model : GeneratedModel) : Prop where
  classes : ∀ {k d}, k ≠ model.thing.key → model.catalog.classes.class? k = some d →
    d.Near (Assembly.homePackage package k.package) k.typeName ∧
      (Assembly.homePackage package k.package = k.package ∨
        k ∈ model.features.map (·.featureClass.key))
  aliases : ∀ {k a}, model.catalog.classes.alias? k = some a → a.Near k.package
  interfaces : ∀ i ∈ model.interfaces, i.Near
  thing : ∃ d, model.catalog.classes.class? model.thing.key = some d ∧
    d.typeName :: d.mentioned = model.parts
  parts : ∀ type ∈ model.parts, type.StandsAlone

end GeneratedModel

namespace Assembly

theorem declareAll_homed {package : String} (hvalid : Package.isValid package)
    (s : ResolutionSettings) (thing : LoadedThing) :
    Resolution.Outcome (declareAll s thing package) {} (fun model _ => model.Homed package)
      fun _ => True := by
  have hpackage := Package.plain_of_isValid hvalid
  have hroot : SettledRoot package (Package.child package "actions") { role := .other } :=
    ⟨⟨length_lt_child _ _, Package.plain_child hpackage (by decide), rfl, nofun⟩,
      homePackage_own (by decide), nofun⟩
  have hown : Resolution.Outcome (declareOwn s thing.model package) {}
      (fun own c => (∀ type ∈ own.1, type.StandsAlone) ∧ (∀ i ∈ own.2, i.Near) ∧
        c.Homed (homePackage package) []) fun _ => True := by
    unfold declareOwn
    refine .bind (declareAttributes_near hpackage thing.model) ?_
    rintro attributes? c₁ ⟨hattributes, hc₁⟩
    refine .bind (declareActions_near hroot hc₁ _ _) ?_
    rintro actions? c₂ ⟨hactions, hc₂⟩
    exact .pure ⟨hattributes, hactions, hc₂⟩
  refine (declareAll_outcome hvalid (Q := fun own features c =>
      ((∀ type ∈ own.1, type.StandsAlone) ∧ (∀ i ∈ own.2, i.Near) ∧ ∀ f ∈ features, f.Near) ∧
        c.Homed (homePackage package) (features.map (·.featureClass.key))) hown ?_).imp ?_
  · rintro own c₁ ⟨hattributes, hactions, hc₁⟩
    refine (declareFeatures_near hpackage thing.features hc₁).imp ?_
    rintro features c₂ ⟨hfeatures, hc₂⟩
    exact ⟨⟨hattributes, hactions, hfeatures⟩, by simpa using hc₂⟩
  · rintro model _ ⟨c, ⟨⟨hattributes, hactions, hfeatures⟩, hc⟩, hcompletes⟩
    have hcatalog := hcompletes.catalog
    generalize hdecl : thingDecl s thing.model (thingFields model.attributes? model.features)
      model.thing = d at hcatalog
    have hkey : d.key = model.thing.key := by rw [← hdecl]; rfl
    constructor
    · intro k d' hne hd'
      rw [hcatalog, class?_addClass, if_neg (hkey ▸ hne)] at hd'
      exact ⟨hc.classes hd', hc.settled (ne_of_eq_of_ne hd' (Option.some_ne_none _))⟩
    · intro k a ha
      rw [hcatalog, alias?_addClass] at ha
      exact hc.aliases ha
    · refine List.forall_mem_append.mpr ⟨fun i hi => hactions i (Option.mem_toList.mp hi), ?_⟩
      intro i hi
      obtain ⟨f, hf, hi⟩ := List.mem_filterMap.mp hi
      exact (hfeatures f hf).actions i hi
    · refine ⟨d, ?_, ?_⟩
      · rw [hcatalog, ← hkey]
        exact class?_addClass_self c d
      · rw [← hdecl, mentioned_thingDecl]
        exact congrArg (· :: _) hcompletes.topLevel.typeName_eq
    · refine List.forall_mem_cons.mpr ⟨⟨hcompletes.topLevel.2, hcompletes.name⟩,
        List.forall_mem_append.mpr ⟨fun type hmem => ?_, fun type hmem => ?_⟩⟩
      · exact hattributes type (Option.mem_toList.mp hmem)
      · obtain ⟨f, hf, rfl⟩ := List.mem_map.mp hmem
        exact (hfeatures f hf).featureClass

end Assembly

theorem ClassDecl.Near.of_mem_mentioned {package : String} {around : TypeName} {d : ClassDecl}
    (h : d.Near package around) : ∀ type ∈ d.mentioned, type.Near package (some around) := by
  intro type hmem
  rcases List.mem_append.mp hmem with hmem | hmem
  · exact h.parents type hmem
  · split at hmem
    · obtain ⟨field, hfield, href⟩ := List.mem_filterMap.mp hmem
      exact h.fields field hfield type href
    · obtain ⟨value, hvalue, href⟩ := Option.bind_eq_some_iff.mp (Option.mem_toList.mp hmem)
      exact h.mapValue value hvalue type href
    · cases hmem
    · cases hmem

theorem AliasDecl.Near.of_mem_mentioned {package : String} {a : AliasDecl} (h : a.Near package) :
    ∀ type ∈ a.mentioned, type.Near package none :=
  List.forall_mem_append.mpr
    ⟨fun type hmem => h.target type (Option.mem_toList.mp hmem),
      fun type hmem => h.parent type (Option.mem_toList.mp hmem)⟩

theorem hygienic_of_package {names : List TypeName} {package : String}
    (h : ∀ type ∈ names, type.package = package) : Hygienic names :=
  fun a ha b hb _ => (h a ha).trans (h b hb).symm

/-- A class that mentions types of one package, and enums of its own, has to be called differently
from types of another package. -/
theorem ClassDecl.hygienic_iff {package : String} {d : ClassDecl}
    (h : ∀ type ∈ d.mentioned, type.Near package (some d.typeName)) :
    Hygienic (d.typeName :: d.mentioned) ↔
      ∀ type ∈ d.mentioned, type.package ≠ d.package → type.topLevel ≠ d.name := by
  refine ⟨fun hygienic type hmem hne htop => hne ?_, fun hapart => ?_⟩
  · exact hygienic type (List.mem_cons_of_mem _ hmem) d.typeName List.mem_cons_self htop
  · -- What is called like the class is of its package.
    have hown {type : TypeName} (hmem : type ∈ d.typeName :: d.mentioned)
        (htop : type.topLevel = d.name) : type.package = d.package := by
      rcases List.mem_cons.mp hmem with rfl | hmem
      · rfl
      · by_contra hne
        exact hapart type hmem hne htop
    have hplace {type : TypeName} (hmem : type ∈ d.typeName :: d.mentioned) :
        type.package = package ∨ type.topLevel = d.name := by
      rcases List.mem_cons.mp hmem with rfl | hmem
      · exact .inr rfl
      · rcases (h type hmem).place with hpackage | ⟨_, ⟨⟩, -, howner⟩
        · exact .inl hpackage
        · exact .inr (by rw [TypeName.topLevel, howner]; rfl)
    intro a ha b hb htop
    rcases hplace ha with hpackage | hname
    · rcases hplace hb with hpackage' | hname
      · rw [hpackage, hpackage']
      · rw [hown hb hname, hown ha (htop.trans hname)]
    · rw [hown ha hname, hown hb (htop.symm.trans hname)]

namespace GeneratedModel

/-- The Thing, its attributes and its features are called differently. -/
def PartsApart (model : GeneratedModel) : Prop :=
  ∀ a ∈ model.parts, ∀ b ∈ model.parts, a.name = b.name → a = b

/-- No feature is called like a type of another package that its class mentions. -/
def FeaturesApart (model : GeneratedModel) : Prop :=
  ∀ f ∈ model.features, ∀ d, model.catalog.classes.class? f.featureClass.key = some d →
    ∀ type ∈ d.mentioned, type.package ≠ d.package → type.topLevel ≠ d.name

variable {package : String} {model : GeneratedModel} {style : Kotlin.Style}

section Homed

variable (h : model.Homed package) (hnamed : model.catalog.Named)
include h

theorem Homed.hygienic_parts_iff : Hygienic model.parts ↔ model.PartsApart := by
  refine forall₂_congr fun a ha => forall₂_congr fun b hb => ?_
  obtain ⟨hatop, haname⟩ := h.parts a ha
  obtain ⟨hbtop, hbname⟩ := h.parts b hb
  have hname : a.topLevel = b.topLevel ↔ a.name = b.name := by
    simp only [TypeName.topLevel, hatop, hbtop, Option.getD_none]
  rw [hname]
  refine ⟨fun hpackage hsame => ?_, fun heq hsame => congrArg TypeName.package (heq hsame)⟩
  refine TypeName.eq_of_localName haname hbname (fun _ => hpackage hsame) ?_
  simp only [TypeName.localName, hatop, hbtop, hsame]

include hnamed

/-- The classes before that of the Thing are at home, or those of features. -/
theorem Homed.hygienic_of_class (hapart : model.FeaturesApart) {k : TypeKey} {d : ClassDecl}
    (hd : model.catalog.classes.class? k = some d) (hne : k ≠ model.thing.key) :
    Hygienic (d.typeName :: d.mentioned) := by
  obtain ⟨hnear, hhome⟩ := h.classes hne hd
  obtain rfl : d.key = k := (hnamed.class_held hd).1
  refine (ClassDecl.hygienic_iff hnear.of_mem_mentioned).mpr fun type hmem hother => ?_
  rcases hhome with hhome | hfeature
  · refine absurd ?_ hother
    rcases (hnear.of_mem_mentioned type hmem).place with hpackage | ⟨_, ⟨⟩, hpackage, -⟩
    · exact hpackage.trans hhome
    · exact hpackage
  · obtain ⟨f, hf, hkey⟩ := List.mem_map.mp hfeature
    exact hapart f hf d (hkey ▸ hd) type hmem hother

/-- Two kinds of clashes are all that there are. -/
theorem Homed.hygienic_iff : (∀ file ∈ model.printed style, Hygienic file.names) ↔
    model.PartsApart ∧ model.FeaturesApart := by
  obtain ⟨thing, hthing, hparts⟩ := h.thing
  have hmem {k : TypeKey} {d : ClassDecl} (hd : model.catalog.classes.class? k = some d) :
      Kotlin.Printed.ofClass style d ∈ model.printed style := by
    have hvalue : d ∈ model.catalog.classes.classes.values :=
      (OrderedMap.mem_values_iff _ _).mpr ⟨k, hd⟩
    exact List.mem_append_left _ (List.mem_append_left _ (List.mem_map_of_mem hvalue))
  rw [← h.hygienic_parts_iff]
  refine ⟨fun hfiles => ⟨?_, ?_⟩, ?_⟩
  · rw [← hparts]
    exact hfiles _ (hmem hthing)
  · intro f _ d hd type htype hother htop
    exact hother (hfiles _ (hmem hd) type (List.mem_cons_of_mem _ htype) d.typeName
      List.mem_cons_self htop)
  · rintro ⟨hpartsApart, hfeaturesApart⟩ file hfile
    simp only [printed, List.mem_append, List.mem_map] at hfile
    rcases hfile with (⟨d, hd, rfl⟩ | ⟨a, ha, rfl⟩) | ⟨i, hi, rfl⟩
    · obtain ⟨k, hk⟩ := (OrderedMap.mem_values_iff _ _).mp hd
      by_cases hkey : k = model.thing.key
      · obtain rfl : d = thing := Option.some.inj ((hkey ▸ hk).symm.trans hthing)
        change Hygienic (d.typeName :: d.mentioned)
        rwa [hparts]
      · exact h.hygienic_of_class hnamed hfeaturesApart hk hkey
    · obtain ⟨k, hk⟩ := (OrderedMap.mem_values_iff _ _).mp ha
      obtain rfl : a.key = k := (hnamed.alias_held hk).1
      exact hygienic_of_package (List.forall_mem_cons.mpr ⟨rfl, fun type hmem =>
        ((h.aliases hk).of_mem_mentioned type hmem).package_eq⟩)
    · exact hygienic_of_package (List.forall_mem_cons.mpr ⟨rfl, fun type hmem =>
        (h.interfaces i hi type hmem).package_eq⟩)

omit hnamed in
/-- All types in the files have names. -/
theorem Homed.isName_of_mem_names (hfiles : ∀ f ∈ model.sourceFiles style, IsName f.name)
    {file : Kotlin.Printed} (hfile : file ∈ model.printed style) :
    ∀ type ∈ file.names, IsName type.name := by
  obtain ⟨thing, hthing, hparts⟩ := h.thing
  have hown : IsName file.type.name := by
    have hname := hfiles file.file (mem_sourceFiles_iff.mpr (.inl ⟨file, hfile, rfl⟩))
    simp only [printed, List.mem_append, List.mem_map] at hfile
    rcases hfile with (⟨d, -, rfl⟩ | ⟨a, -, rfl⟩) | ⟨i, -, rfl⟩ <;> exact hname
  refine List.forall_mem_cons.mpr ⟨hown, fun type hmem => ?_⟩
  simp only [printed, List.mem_append, List.mem_map] at hfile
  rcases hfile with (⟨d, hd, rfl⟩ | ⟨a, ha, rfl⟩) | ⟨i, hi, rfl⟩
  · obtain ⟨k, hk⟩ := (OrderedMap.mem_values_iff _ _).mp hd
    by_cases hkey : k = model.thing.key
    · obtain rfl : d = thing := Option.some.inj ((hkey ▸ hk).symm.trans hthing)
      exact (h.parts type (hparts ▸ List.mem_cons_of_mem _ hmem)).2
    · exact ((h.classes hkey hk).1.of_mem_mentioned type hmem).plain.name
  · obtain ⟨k, hk⟩ := (OrderedMap.mem_values_iff _ _).mp ha
    exact ((h.aliases hk).of_mem_mentioned type hmem).plain.name
  · exact (h.interfaces i hi type hmem).plain.name

end Homed

/-- In every model that is built, whatever the style of its sources: the files of classes, aliases
and interfaces import all types of other packages that they mention, and where the names in a file
are told apart, what is written of a type means only this type. The names in all files are told
apart exactly where the Thing, its attributes and its features are called differently, and no
feature is called like a type of its properties. -/
theorem build_hygienic_iff {m : Type → Type} [Monad m] [LawfulMonad m] (load : Loader m)
    (o : GenerationOptions) (s : ResolutionSettings) (location package : String) :
    Yields (fun result => ∀ model, result = .ok model → ∀ style : Kotlin.Style,
        (∀ file ∈ model.printed style, file.ImportsOthers ∧
          (Hygienic file.names →
            ∀ a ∈ file.names, ∀ b ∈ file.names, a.localName = b.localName → a = b)) ∧
        ((∀ file ∈ model.printed style, Hygienic file.names) ↔
          model.PartsApart ∧ model.FeaturesApart))
      (GeneratedModel.build load o s location package) := by
  refine yields_build_of_ofThing fun hvalid thing model hmodel style => ?_
  obtain ⟨c, d, hassembled⟩ := ofThing_assembled thing.within_true hvalid hmodel
  have h : model.Homed package := of_declareAll (Assembly.declareAll_homed hvalid s thing) hmodel
  have hfiles : ∀ f ∈ model.sourceFiles style, IsName f.name :=
    fun f hf => (hassembled.isName_of_mem_sourceFiles hf).2
  refine ⟨fun file hfile => ⟨printed_importsOthers hfile, fun hygienic a ha b hb => ?_⟩,
    h.hygienic_iff hassembled.named⟩
  have hnames := h.isName_of_mem_names hfiles hfile
  exact TypeName.eq_of_localName (hnames a ha) (hnames b hb) (hygienic a ha b hb)

end GeneratedModel

/-- A Thing with a feature that is called like it. -/
def namesakes : List (String × Json) :=
  [("lamp.json", lampDocument),
    ("hall.json", .object [("title", .string "Hall"), ("links", .array [lampLink "hall"])])]

def namesakesBuild : Id (Except GenerationError GeneratedModel) :=
  GeneratedModel.build (Loader.ofDocuments namesakes) {}
    { placement := .separate, digest := plainDigest } "hall.json" "p"

/-- The file of the Thing imports a class with the name of its own. -/
theorem namesakesBuild_not_hygienic : ∃ model, namesakesBuild = .ok model ∧
    model.parts = [⟨"p", "Hall", none⟩, ⟨"p.features.hall", "Hall", none⟩] ∧
    ∀ style : Kotlin.Style, (∀ file ∈ model.printed style, file.ImportsOthers) ∧
      ¬∀ file ∈ model.printed style, Hygienic file.names := by
  have hrun : (match namesakesBuild with
      | .ok model => model.parts
      | .error _ => []) = [⟨"p", "Hall", none⟩, ⟨"p.features.hall", "Hall", none⟩] := by
    decide +kernel
  obtain ⟨proved, hproved⟩ := GeneratedModel.build_hygienic_iff
    (Loader.ofDocuments namesakes : Loader Id) {}
    { placement := .separate, digest := plainDigest } "hall.json" "p"
  cases h : namesakesBuild with
  | error e => simp [h] at hrun
  | ok model =>
    rw [h] at hrun
    dsimp only at hrun
    refine ⟨model, rfl, hrun, fun style => ?_⟩
    obtain ⟨hfiles, hiff⟩ := proved.2 model (hproved.trans h) style
    refine ⟨fun file hfile => (hfiles file hfile).1, fun hygienic => ?_⟩
    have hapart := (hiff.mp hygienic).1
    rw [GeneratedModel.PartsApart, hrun] at hapart
    exact absurd hapart (by decide)

end ThingTypes
