import ThingTypes.Proofs.Generation.Interfaces

/-
  How the declarations of a Thing are put together. The types are declared by changes that come from
  its schemas (`Catalog.Changes`), every interface of actions stands, and the class of the Thing
  comes last, in a package where nothing else is.

  Features whose segments are the same share a package for their actions. So what is in the package
  of an interface when it is declared comes from the interfaces before it.
-/

namespace ThingTypes

open Resolution Catalog

/-- All schemas of a Thing are known. -/
structure LoadedThing.Within (known : SchemaNode → Prop) (thing : LoadedThing) : Prop where
  children : ClosedUnderChildren known
  actionEnum : ∀ keys, known (Assembly.actionEnumNode keys)
  attributes : ∀ properties, thing.model.propertyNodes = .ok properties →
    known (.ofProperties properties thing.model.requiredProperties (some attributesName))
  actions : Assembly.PayloadsKnown known thing.model.actions.entries
  feature : ∀ feature ∈ thing.features, ∀ name node,
    feature.model.featureNode feature.location name = .ok node → known node
  featureActions : ∀ feature ∈ thing.features,
    Assembly.PayloadsKnown known feature.model.actions.entries

theorem LoadedThing.within_true (thing : LoadedThing) : thing.Within fun _ => True where
  children _ _ _ _ := trivial
  actionEnum _ := trivial
  attributes _ _ := trivial
  actions _ _ _ _ _ _ _ := trivial
  feature _ _ _ _ _ := trivial
  featureActions _ _ _ _ _ _ _ _ _ := trivial

/-- The class of the Thing has been added to the types of its schemas. -/
structure GeneratedModel.Assembled (digest : Digest) (known : SchemaNode → Prop)
    (model : GeneratedModel) (c : Catalog) (d : ClassDecl) : Prop where
  changes : Changes digest known {} c
  packages : ∀ {k}, c.classes.table.get? k ≠ none ∨ c.enums.separate? k ≠ none →
    Package.isValid k.package
  interfaces : ActionInterface.StandAll digest c [] model.interfaces
  catalog : model.catalog = c.addClass d
  free : c.IsFree d.key
  key : d.key = model.thing.key
  package : Package.isValid d.package
  name : IsName d.name
  fields : d.fields = Assembly.thingFields model.attributes? model.features
  nestedEnums : d.nestedEnums = []

/-- Catalogs that have the same part hold the same names in it. -/
theorem Catalog.same_of_within_eq {mine : String → Bool} {c c' : Catalog} {k : TypeKey}
    (h : c'.within mine = c.within mine) (hk : mine k.package) :
    c'.classes.table.get? k = c.classes.table.get? k ∧
      c'.enums.table.get? k = c.enums.table.get? k ∧
      c'.enums.separate? k = c.enums.separate? k := by
  obtain ⟨hclasses, henums⟩ := within_eq_iff.mp h
  have htable (e : EnumCatalog) : (e.within mine).table.get? k = e.table.get? k :=
    OrderedMap.get?_filter hk
  refine ⟨?_, ?_, ?_⟩
  · rw [← c'.classes.table_get?_within hk, hclasses, c.classes.table_get?_within hk]
  · rw [← htable c'.enums, henums, htable c.enums]
  · rw [← c'.enums.separate?_within hk, henums, c.enums.separate?_within hk]

namespace Assembly

/-! ## Packages of actions -/

/-- The packages that actions of a Thing and of its features are declared in. -/
def IsActionPackage (package q : String) : Prop :=
  q = Package.child package "actions" ∨
    ∃ segment : String, Package.isSegment segment.toList ∧
      q = Package.child (featurePackage package segment) "actions"

theorem attributes_not_isActionPackage (package : String) :
    ¬IsActionPackage package (Package.child package "attributes") := by
  rintro (h | ⟨segment, -, h⟩)
  · simpa [Package.child] using congrArg String.toList h
  · simpa [Package.child, featurePackage] using congrArg String.toList h

section Segment

variable (package : String) {segment : String} (hsegment : Package.isSegment segment.toList)
include hsegment

theorem feature_not_isActionPackage :
    ¬IsActionPackage package (featurePackage package segment) := by
  rintro (h | ⟨segment', -, h⟩)
  · simpa [Package.child, featurePackage] using congrArg String.toList h
  · have hchars : segment.toList = segment'.toList ++ ".actions".toList := by
      simpa [Package.child, featurePackage] using congrArg String.toList h
    have hdot : '.' ∈ segment.toList := by simp [hchars]
    exact Package.ne_dot_of_isSegment hsegment hdot rfl

theorem properties_not_isActionPackage :
    ¬IsActionPackage package (featurePackage package segment ++ ".properties") := by
  rintro (h | ⟨segment', hsegment', h⟩)
  · simpa [Package.child, featurePackage] using congrArg String.toList h
  · rw [Package.child, String.append_assoc] at h
    have hsame := congrArg (segmentOf package) h
    rw [segmentOf_append package hsegment rfl, segmentOf_append package hsegment' rfl] at hsame
    rw [hsame] at h
    simpa using congrArg String.toList h

end Segment

/-- The enums in the packages of actions belong to the packages that are listed. -/
def ActionEnumsIn (package : String) (listed : List String) (c : Catalog) : Prop :=
  ∀ k, c.enums.table.get? k ≠ none → IsActionPackage package k.package → k.package ∈ listed

theorem ActionEnumsIn.kept {package : String} {listed listed' : List String} {c c' : Catalog}
    {mine : String → Bool} (h : ActionEnumsIn package listed c)
    (hframe : c'.within (!mine ·) = c.within (!mine ·)) (hsub : listed ⊆ listed')
    (hmine : ∀ q, mine q → IsActionPackage package q → q ∈ listed') :
    ActionEnumsIn package listed' c' := by
  intro k hk hpackage
  by_cases hq : mine k.package
  · exact hmine _ hq hpackage
  · have hother : (!mine k.package) = true := by simpa using hq
    rw [(same_of_within_eq hframe hother).2.1] at hk
    exact hsub (h k hk hpackage)

/-! ## Declarations -/

variable {s : ResolutionSettings} {known : SchemaNode → Prop} {package q : String} {c : Catalog}
  {listed : List String}

section Interfaces

variable (hclosed : ClosedUnderChildren known) (hactionEnum : ∀ keys, known (actionEnumNode keys))
include hclosed hactionEnum

/-- An interface that finds its enum declared shares a package that is listed. -/
theorem declareActions_lists (hq : IsActionPackage package q) {feature? : Option String}
    (hroot : AtRoot package q { role := .other, feature? })
    {actions : OrderedMap String ActionAffordance} (hpayloads : PayloadsKnown known actions.entries)
    {owner : String} (howner : NameText owner) (hc : Changes s.digest known {} c)
    (hlisted : ActionEnumsIn package listed c) :
    Resolution.Outcome (declareActions s actions owner q feature?) c
      (fun i? c' => Changes s.digest known c c' ∧
        (∀ i ∈ i?, i.Stands s.digest c' (i.package ∈ listed)) ∧
        ActionEnumsIn package (listed ++ i?.toList.map ActionInterface.package) c')
      fun _ => True := by
  have hlocal : Local (q == ·) (declareActions s actions owner q feature?) fun _ => True :=
    declareActions_local (beq_self_eq_true q) _ _ _
  refine ((declareActions_stands hclosed hactionEnum hroot hpayloads howner hc).framed
    hlocal).imp ?_
  rintro (_ | i) c' ⟨⟨hchanges, hnone, hstands⟩, hframe⟩
  · obtain rfl := hnone rfl
    exact ⟨hchanges, nofun, by simpa using hlisted⟩
  · obtain ⟨rfl, hi⟩ := hstands i rfl
    refine ⟨hchanges, ?_, hlisted.kept hframe (List.subset_append_left _ _) ?_⟩
    · rintro _ ⟨⟩
      have hpackage : i.actionEnum.key.package = i.package := hi.enum_topLevel.1
      exact hi.weaken fun hheld => hpackage ▸ hlisted _ hheld (hpackage ▸ hq)
    · rintro q hq -
      rw [beq_iff_eq] at hq
      simp [hq]

/-- A feature is declared by changes, and its interface stands. -/
theorem declareFeature_lists (hpackage : Plain package) {feature : LoadedFeature}
    (hnode : ∀ name node, feature.model.featureNode feature.location name = .ok node → known node)
    (hpayloads : PayloadsKnown known feature.model.actions.entries)
    (hc : Changes s.digest known {} c) (hlisted : ActionEnumsIn package listed c) :
    Resolution.Outcome (declareFeature s package feature) c
      (fun f c' => Changes s.digest known c c' ∧
        (∀ i ∈ f.actions?, i.Stands s.digest c' (i.package ∈ listed)) ∧
        ActionEnumsIn package (listed ++ f.actions?.toList.map ActionInterface.package) c')
      fun _ => True := by
  unfold declareFeature
  refine .bind (.liftExcept (Q := fun _ c' => c = c') (fun _ _ => rfl) trivial) ?_
  rintro name _ rfl
  dsimp only
  have hsegment := Identifier.isSegment_packageSegment name
  have hnotInner := feature_not_isActionPackage package hsegment
  have hnotProperties := properties_not_isActionPackage package hsegment
  have hactions : IsActionPackage package
      (Package.child (featurePackage package (Identifier.packageSegment name)) "actions") :=
    .inr ⟨_, hsegment, rfl⟩
  have hdeeper : package.length <
      (featurePackage package (Identifier.packageSegment name)).length :=
    Nat.lt_trans (length_lt_child _ _) (length_lt_child _ _)
  have hplain : Plain (featurePackage package (Identifier.packageSegment name)) :=
    Package.plain_child (Package.plain_child hpackage (by decide))
      (Identifier.plain_packageSegment name)
  unfold featurePackage at hnotInner hnotProperties hactions hdeeper hplain
  generalize Package.child (Package.child package "features") (Identifier.packageSegment name) =
    inner at *
  have hname : ∀ feature ∈ some (Identifier.className name), NameText feature := by
    rintro _ ⟨⟩
    exact Identifier.nameText_className name
  refine .bind (.liftExcept (Q := fun node c' => known node ∧ c = c')
    (fun node h => ⟨hnode name node h, rfl⟩) trivial) ?_
  rintro node _ ⟨hknown, rfl⟩
  -- The class of the feature touches none of the packages of actions.
  let mine (q : String) : Bool := q == inner || q == inner ++ ".properties"
  let context : NamingContext := { role := .feature, feature? := some (Identifier.className name) }
  have hsite : SiteWithin (mine ·) ⟨inner, context, Identifier.className name⟩ :=
    ⟨by simp [mine], by simp [mine, Site.innerPackage, context], nofun⟩
  have hlocal : Local mine (resolveClass s (Identifier.className name) node inner context)
      fun type => mine type.package :=
    ((Local.stepRules s mine).byChildren node).2 _ _ hsite
  have hroot : AtRoot package inner context := ⟨hdeeper, hplain, rfl, hname⟩
  refine .bind (((makesChanges hclosed node hknown).ofClass _ _ (hroot.isOpen _)).framed hlocal) ?_
  rintro featureClass c₁ ⟨⟨hclass, hchanges⟩, hframe⟩
  have hlisted₁ : ActionEnumsIn package listed c₁ := by
    refine hlisted.kept hframe (List.Subset.refl _) fun q hq haction => ?_
    rcases Bool.or_eq_true_iff.mp hq with hq | hq
    · exact absurd (beq_iff_eq.mp hq ▸ haction) hnotInner
    · exact absurd (beq_iff_eq.mp hq ▸ haction) hnotProperties
  refine .bind (declareActions_lists hclosed hactionEnum hactions
    ⟨Nat.lt_trans hdeeper (length_lt_child _ _), Package.plain_child hplain (by decide), rfl, hname⟩
    hpayloads hclass.name.chars (hc.trans hchanges) hlisted₁) ?_
  rintro actions? c₂ ⟨hchanges', hstands, hlisted₂⟩
  exact .pure ⟨hchanges.trans hchanges', hstands, hlisted₂⟩

theorem declareFeatures_stand (hpackage : Plain package) {features : List LoadedFeature}
    (hnodes : ∀ feature ∈ features, ∀ name node,
      feature.model.featureNode feature.location name = .ok node → known node)
    (hpayloads : ∀ feature ∈ features, PayloadsKnown known feature.model.actions.entries) :
    ∀ {listed c}, Changes s.digest known {} c → ActionEnumsIn package listed c →
      Resolution.Outcome (declareFeatures s package features) c
        (fun declared c' => Changes s.digest known c c' ∧
          ActionInterface.StandAll s.digest c' listed (declared.filterMap FeatureModel.actions?))
        fun _ => True := by
  induction features with
  | nil => exact fun _ _ => .pure ⟨.refl, nofun⟩
  | cons feature rest ih =>
    intro listed c hc hlisted
    rw [declareFeatures]
    refine .bind (declareFeature_lists hclosed hactionEnum hpackage
      (hnodes feature List.mem_cons_self) (hpayloads feature List.mem_cons_self) hc hlisted) ?_
    rintro declared c₁ ⟨hchanges, hstands, hlisted₁⟩
    have hc₁ : Changes s.digest known {} c₁ := hc.trans hchanges
    refine .bind (ih (fun feature hmem => hnodes feature (List.mem_cons_of_mem _ hmem))
      (fun feature hmem => hpayloads feature (List.mem_cons_of_mem _ hmem)) hc₁ hlisted₁) ?_
    rintro others c₂ ⟨hchanges', hstandAll⟩
    have hnamed := hc₁.named consistent_empty.toNamed
    have hfirst : ∀ i ∈ declared.actions?, i.Stands s.digest c₂ (i.package ∈ listed) :=
      fun i hi => (hstands i hi).kept hnamed hchanges'
    refine .pure ⟨hchanges.trans hchanges', ?_⟩
    have hall := ActionInterface.StandAll.append hfirst hstandAll
    cases hactions : declared.actions? <;> simpa [hactions] using hall

end Interfaces

/-! ## Things -/

theorem declareAttributes_lists (hclosed : ClosedUnderChildren known) (hpackage : Plain package)
    {model : ThingModel}
    (hattributes : ∀ properties, model.propertyNodes = .ok properties →
      known (.ofProperties properties model.requiredProperties (some attributesName))) :
    Resolution.Outcome (declareAttributes s model package) {}
      (fun _ c => Changes s.digest known {} c ∧ ActionEnumsIn package [] c) fun _ => True := by
  have hroot : AtRoot package (Package.child package "attributes") { role := .thingAttribute } :=
    ⟨length_lt_child _ _, Package.plain_child hpackage (by decide), rfl, nofun⟩
  have hchanges : Resolution.Outcome (declareAttributes s model package) {}
      (fun _ c => Changes s.digest known {} c) fun _ => True := by
    unfold declareAttributes
    split
    · exact .pure .refl
    · refine .bind (.liftExcept (Q := fun properties c => known
        (.ofProperties properties model.requiredProperties (some attributesName)) ∧ {} = c)
        (fun properties h => ⟨hattributes properties h, rfl⟩) trivial) ?_
      rintro properties _ ⟨hknown, rfl⟩
      refine .bind ((makesChanges hclosed _ hknown).ofClass _ _ (hroot.isOpen _)) ?_
      exact fun _ _ h => .pure h.2
  have hlocal : Local (Package.child package "attributes" == ·) (declareAttributes s model package)
      fun _ => True := declareAttributes_local (beq_self_eq_true _) model
  have hempty : ActionEnumsIn package [] {} := fun _ h => absurd rfl h
  refine (hchanges.framed hlocal).imp fun _ c h => ⟨h.1, ?_⟩
  refine hempty.kept h.2 (List.Subset.refl _) fun q hq haction => ?_
  exact absurd (beq_iff_eq.mp hq ▸ haction) (attributes_not_isActionPackage package)

/-- What is declared before the class of the Thing is in packages below that of the Thing. -/
def isInner (package q : String) : Bool :=
  Package.isValid q && decide (q ≠ package)

theorem isInner_child {package q segment : String} (hq : Package.isValid q)
    (hlength : package.length ≤ q.length) (hsegment : Package.isSegment segment.toList) :
    isInner package (Package.child q segment) := by
  have hne : Package.child q segment ≠ package := fun h =>
    absurd (Nat.lt_of_le_of_lt hlength (length_lt_child q segment)) (by simp [h])
  simp [isInner, Package.isValid_child hq hsegment, hne]

theorem declareOwn_inner (hvalid : Package.isValid package) (model : ThingModel) :
    Local (isInner package) (declareOwn s model package) fun _ => True :=
  declareOwn_local (isInner_child hvalid le_rfl (by decide))
    (isInner_child hvalid le_rfl (by decide)) _

theorem declareFeatures_inner (hvalid : Package.isValid package) (features : List LoadedFeature) :
    Local (isInner package) (declareFeatures s package features) fun _ => True := by
  refine declareFeatures_local _ fun feature _ segment hsegment => ?_
  obtain ⟨name, -, rfl⟩ := Option.map_eq_some_iff.mp hsegment
  have hname := Identifier.isSegment_packageSegment name
  have hfeatures : Package.isValid (Package.child package "features") :=
    Package.isValid_child hvalid (by decide)
  have hlonger : package.length ≤ (Package.child package "features").length :=
    (length_lt_child _ _).le
  have hinner : Package.isValid (featurePackage package (Identifier.packageSegment name)) :=
    Package.isValid_child hfeatures hname
  have hlonger' : package.length ≤
      (featurePackage package (Identifier.packageSegment name)).length :=
    hlonger.trans (length_lt_child _ _).le
  have hproperties : isInner package
      (Package.child (featurePackage package (Identifier.packageSegment name)) "properties") :=
    isInner_child hinner hlonger' (by decide)
  refine ⟨isInner_child hfeatures hlonger hname, ?_, isInner_child hinner hlonger' (by decide)⟩
  rwa [Package.child, String.append_assoc] at hproperties

theorem isName_thingName (model : ThingModel) : IsName (thingName model) := by
  unfold thingName
  dsimp only
  split
  · exact ⟨by decide, by decide⟩
  · rename_i hne
    exact ⟨by simpa using hne, Identifier.nameText_className _⟩

/-- The class of the Thing comes to a catalog in which everything is in packages below. -/
structure Completes (s : ResolutionSettings) (thing : LoadedThing) (package : String) (c : Catalog)
    (model : GeneratedModel) : Prop where
  inner : ∀ {k}, c.classes.table.get? k ≠ none ∨ c.enums.separate? k ≠ none →
    isInner package k.package
  topLevel : model.thing.IsTopLevel package
  candidate : ∃ taken,
    model.thing.name ∈ Identifier.searchCandidates (thingName thing.model) none none taken
  name : IsName model.thing.name
  free : c.IsFree model.thing.key
  catalog : model.catalog = c.addClass
    (thingDecl s thing.model (thingFields model.attributes? model.features) model.thing)

/-- What is known of the declarations before the class of the Thing, and of this class. -/
theorem declareAll_outcome (hvalid : Package.isValid package) {thing : LoadedThing}
    {P : Option TypeName × Option ActionInterface → Catalog → Prop}
    {Q : Option TypeName × Option ActionInterface → List FeatureModel → Catalog → Prop}
    (hown : Resolution.Outcome (declareOwn s thing.model package) {} P fun _ => True)
    (hfeatures : ∀ own c, P own c →
      Resolution.Outcome (declareFeatures s package thing.features) c (Q own) fun _ => True) :
    Resolution.Outcome (declareAll s thing package) {}
      (fun model _ => ∃ c, Q (model.attributes?, model.actions?) model.features c ∧
        Completes s thing package c model) fun _ => True := by
  rw [declareAll_eq]
  refine .bind (hown.framed (declareOwn_inner hvalid _)) ?_
  rintro own c₁ ⟨hP, hframe₁⟩
  refine .bind ((hfeatures own c₁ hP).framed (declareFeatures_inner hvalid _)) ?_
  rintro features c₂ ⟨hQ, hframe₂⟩
  -- Nothing is declared outside of the inner packages so far.
  have houter {k : TypeKey} (hk : ¬isInner package k.package) :
      c₂.classes.table.get? k = none ∧ c₂.enums.separate? k = none := by
    have hother : (!isInner package k.package) = true := by simpa using hk
    obtain ⟨htable, -, hseparate⟩ := same_of_within_eq (hframe₂.trans hframe₁) hother
    exact ⟨htable, hseparate⟩
  have hnew (name : String) : c₂.classes.table.get? ⟨package, name⟩ = none :=
    (houter (by simp [isInner])).1
  refine .bind (declareThing_outcome hnew _ _ _) ?_
  rintro type c₃ ⟨htop, ⟨taken, hcandidate⟩, hfree, rfl⟩
  have hnone : ∀ parent ∈ (none : Option String), NameText parent :=
    fun parent hmem => absurd hmem (Option.not_mem_none parent)
  refine .get fun st hst => .pure ⟨c₂, hQ, ?_, htop, ⟨taken, hcandidate⟩, ?_, hfree, hst⟩
  · intro k hk
    by_contra houtside
    obtain ⟨htable, hseparate⟩ := houter houtside
    exact hk.elim (absurd htable) (absurd hseparate)
  · exact Identifier.isName_rule.of_mem_searchCandidates (isName_thingName _) hnone hnone hcandidate

section Thing

variable {thing : LoadedThing} (hwithin : thing.Within known)
include hwithin

theorem declareOwn_lists (hpackage : Plain package) :
    Resolution.Outcome (declareOwn s thing.model package) {}
      (fun own c => Changes s.digest known {} c ∧
        (∀ i ∈ own.2, i.Stands s.digest c (i.package ∈ [])) ∧
        ActionEnumsIn package (own.2.toList.map ActionInterface.package) c) fun _ => True := by
  have hroot : AtRoot package (Package.child package "actions") { role := .other } :=
    ⟨length_lt_child _ _, Package.plain_child hpackage (by decide), rfl, nofun⟩
  unfold declareOwn
  refine .bind (declareAttributes_lists hwithin.children hpackage hwithin.attributes) ?_
  rintro attributes? c₁ ⟨hc₁, hlisted⟩
  refine .bind (declareActions_lists hwithin.children hwithin.actionEnum (.inl rfl) hroot
    hwithin.actions (isName_thingName _).chars hc₁ hlisted) ?_
  rintro actions? c₂ ⟨hchanges, hstands, hlisted'⟩
  exact .pure ⟨hc₁.trans hchanges, hstands, by simpa using hlisted'⟩

/-- A model that is built is assembled from the schemas of the Thing. -/
theorem declareAll_assembled (hvalid : Package.isValid package) :
    Resolution.Outcome (declareAll s thing package) {}
      (fun model _ => ∃ c d, model.Assembled s.digest known c d) fun _ => True := by
  have hpackage := Package.plain_of_isValid hvalid
  refine (declareAll_outcome hvalid (Q := fun own features c => Changes s.digest known {} c ∧
      ActionInterface.StandAll s.digest c []
        (own.2.toList ++ features.filterMap FeatureModel.actions?))
    (declareOwn_lists hwithin hpackage) ?_).imp ?_
  · rintro ⟨attributes?, actions?⟩ c₁ ⟨hc₁, hstands, hlisted⟩
    refine (declareFeatures_stand hwithin.children hwithin.actionEnum hpackage
      hwithin.feature hwithin.featureActions hc₁ hlisted).imp ?_
    rintro features c₂ ⟨hchanges, hstandAll⟩
    have hnamed := hc₁.named consistent_empty.toNamed
    exact ⟨hc₁.trans hchanges, .append (fun i hi => (hstands i hi).kept hnamed hchanges) hstandAll⟩
  · rintro model _ ⟨c, ⟨hchanges, hinterfaces⟩, hcompletes⟩
    refine ⟨c, thingDecl s thing.model (thingFields model.attributes? model.features) model.thing,
      ?_⟩
    exact {
      changes := hchanges
      packages := fun hk => (Bool.and_eq_true_iff.mp (hcompletes.inner hk)).1
      interfaces := hinterfaces
      catalog := hcompletes.catalog
      free := hcompletes.free
      key := rfl
      package := by
        change Package.isValid model.thing.package
        rwa [hcompletes.topLevel.1]
      name := hcompletes.name
      fields := rfl
      nestedEnums := rfl }

end Thing

end Assembly

theorem GeneratedModel.ofThing_assembled {s : ResolutionSettings} {known : SchemaNode → Prop}
    {thing : LoadedThing} (hwithin : thing.Within known) {package : String}
    (hvalid : Package.isValid package)
    {model : GeneratedModel} (h : GeneratedModel.ofThing s thing package = .ok model) :
    ∃ c d, model.Assembled s.digest known c d :=
  of_declareAll (Assembly.declareAll_assembled hwithin hvalid) h

end ThingTypes
