import ThingTypes.Proofs.Generation.Assembled
import ThingTypes.Proofs.Generation.FeatureSchema
import ThingTypes.Proofs.Resolution.TypeNames

/-
  How the types of a Thing are called. A Thing has texts that name types: its title, the keys of its
  properties and actions, the names of the instances of its features, and all texts of its schemas.
  If these can name types, all declared types are called as types are.
-/

namespace ThingTypes

open Identifier (IsTypeName IsHint)

/-! ## Texts -/

/-- The schemas of the input and of the output. -/
def ActionAffordance.schemas (action : ActionAffordance) : List Json :=
  action.input?.toList ++ action.output?.toList

/-- The title of a model, the keys of its properties and actions, and the texts of its schemas. -/
def ThingModel.texts (model : ThingModel) : List String :=
  model.title?.toList ++ model.properties.entries.flatMap (fun e => e.1 :: e.2.texts) ++
    model.actions.entries.flatMap fun e => e.1 :: e.2.schemas.flatMap Json.texts

def LoadedFeature.texts (feature : LoadedFeature) : List String :=
  feature.link.instanceName?.toList ++ feature.model.texts

/-- The texts that the types of a Thing are named by. -/
def LoadedThing.texts (thing : LoadedThing) : List String :=
  thing.model.texts ++ thing.features.flatMap LoadedFeature.texts

/-- All texts of the model are of a kind. -/
structure ThingModel.AllTexts (P : String → Prop) (model : ThingModel) : Prop where
  title : ∀ title ∈ model.title?, P title
  properties : ∀ e ∈ model.properties.entries, P e.1 ∧ e.2.AllTexts P
  actions : ∀ e ∈ model.actions.entries, P e.1 ∧ ∀ schema ∈ e.2.schemas, schema.AllTexts P

theorem ThingModel.allTexts_iff {P : String → Prop} {model : ThingModel} :
    model.AllTexts P ↔ ∀ text ∈ model.texts, P text := by
  have hsplit : (∀ text ∈ model.texts, P text) ↔ (∀ title ∈ model.title?, P title) ∧
      (∀ e ∈ model.properties.entries, P e.1 ∧ e.2.AllTexts P) ∧
      ∀ e ∈ model.actions.entries, P e.1 ∧ ∀ schema ∈ e.2.schemas, schema.AllTexts P := by
    simp only [texts, List.forall_mem_append, List.forall_mem_flatMap, List.forall_mem_cons,
      Option.mem_toList, Option.mem_def, Json.AllTexts, and_assoc]
  rw [hsplit]
  exact ⟨fun h => ⟨h.title, h.properties, h.actions⟩, fun h => ⟨h.1, h.2.1, h.2.2⟩⟩

namespace ThingModel.AllTexts

variable {digits : Char → Prop} {model : ThingModel}

theorem propertyNodes {hint : String → Prop} (h : model.AllTexts hint)
    {nodes : List (String × SchemaNode)} (hnodes : model.propertyNodes = .ok nodes) :
    ∀ property ∈ nodes, hint property.1 ∧ property.2.NamedBy hint := by
  intro property hmem
  obtain ⟨e, he, hkey, hnode⟩ := exists_left_of_forall₂ (readsTo_of_propertyNodes hnodes) hmem
  obtain ⟨hhint, hschema⟩ := h.properties e he
  exact ⟨hkey ▸ hhint, SchemaNode.ReadFrom.namedBy ⟨_, hnode⟩ hschema⟩

/-- The object for a category is named by the category. -/
theorem featureNode (h : model.AllTexts (IsHint digits)) {location title : String}
    (htitle : IsHint digits title) {node : SchemaNode}
    (hnode : model.featureNode location title = .ok node) : node.NamedBy (IsHint digits) := by
  obtain ⟨nodes, hnodes, -⟩ := exists_of_bind_eq_ok hnode
  have hread := readsTo_of_propertyNodes hnodes
  have hnamed := h.propertyNodes hnodes
  rw [hread.featureNode] at hnode
  split at hnode
  · cases hnode
  cases hnode
  refine .ofProperties (by rintro _ ⟨⟩; exact htitle) fun property hmem => ?_
  rcases List.mem_append.mp hmem with hmem | hmem
  · obtain ⟨category, hcategory, rfl⟩ := List.mem_map.mp hmem
    obtain ⟨member, hmember, hcategory⟩ :=
      List.mem_filterMap.mp (List.mem_eraseDups.mp hcategory)
    have hhint : IsHint digits category := (hnamed member hmember).2.category category hcategory
    refine ⟨hhint, .ofProperties (by rintro _ ⟨⟩; exact hhint.className_isHint) ?_⟩
    exact fun member hmem => hnamed member (inCategory_subset _ _ hmem)
  · exact hnamed property (inCategory_subset _ _ hmem)

end ThingModel.AllTexts

namespace Assembly

open Resolution Catalog

variable {digits : Char → Prop} {s : ResolutionSettings} {package : String}
  {context : NamingContext} {feature? : Option String} {c : Catalog}

/-! ## Actions -/

/-- A place outside of all types, in a feature that is called as types are. -/
theorem namedAround_of_root (hparent : context.parent? = none)
    (hfeature : ∀ feature ∈ context.feature?, IsTypeName digits feature) (package path : String) :
    NamedAround digits { package, context, path } :=
  ⟨by simp [hparent], hfeature⟩

theorem payloadType_named (hsite : ∀ path, NamedAround digits { package, context, path })
    {schema? : Option Json} (hschema : ∀ schema ∈ schema?, schema.AllTexts (IsHint digits))
    {fallback path : String} (hfallback : IsHint digits fallback)
    (hc : c.AllNamed (IsTypeName digits)) :
    Resolution.Outcome (payloadType s schema? fallback path package context) c
      (fun _ c' => c'.AllNamed (IsTypeName digits)) fun _ => True := by
  unfold payloadType
  cases schema? with
  | none => exact .pure hc
  | some schema =>
    refine .bind (.liftExcept (Q := fun node c' => node.NamedBy (IsHint digits) ∧ c = c')
      (fun node hnode => ⟨SchemaNode.ReadFrom.namedBy ⟨_, hnode⟩ (hschema schema rfl), rfl⟩)
      trivial) ?_
    rintro node _ ⟨hnode, rfl⟩
    dsimp only
    refine .bind ((namesTypes s digits node hnode).ofType (hsite _) ?_ hc) fun _ _ hc' => .pure hc'
    rintro _ ⟨⟩
    cases htitle : node.info.title?.filter fun title => !(Identifier.className title).isEmpty with
    | none => exact hfallback
    | some title => exact hnode.title title (Option.filter_eq_some_iff.mp htitle).1

theorem actionMethods_named (hsite : ∀ path, NamedAround digits { package, context, path })
    {actions : List (String × ActionAffordance)}
    (hactions : ∀ e ∈ actions,
      IsHint digits e.1 ∧ ∀ schema ∈ e.2.schemas, schema.AllTexts (IsHint digits)) :
    ∀ {c : Catalog}, c.AllNamed (IsTypeName digits) →
      Resolution.Outcome (actionMethods s package context actions) c
        (fun _ c' => c'.AllNamed (IsTypeName digits)) fun _ => True := by
  induction actions with
  | nil => exact fun hc => .pure hc
  | cons action rest ih =>
    intro c hc
    obtain ⟨⟨hkey, hschemas⟩, hrest⟩ := List.forall_mem_cons.mp hactions
    have hstem {suffix : String} (hsuffix : IsTypeName digits suffix) :
        IsHint digits (Identifier.className action.1 ++ suffix) :=
      (hkey.className_append hsuffix).isHint
    have hmethod : Resolution.Outcome (actionMethod s package context action.1 action.2) c
        (fun _ c' => c'.AllNamed (IsTypeName digits)) fun _ => True := by
      unfold actionMethod
      refine .bind (payloadType_named hsite (fun schema hmem => hschemas schema ?_)
        (hstem (Identifier.isTypeName_of_capital rfl rfl)) hc) fun _ _ hc₁ => ?_
      · exact List.mem_append_left _ (Option.mem_toList.mpr hmem)
      refine .bind (payloadType_named hsite (fun schema hmem => hschemas schema ?_)
        (hstem (Identifier.isTypeName_of_capital rfl rfl)) hc₁) fun _ _ hc₂ => .pure hc₂
      exact List.mem_append_right _ (Option.mem_toList.mpr hmem)
    rw [actionMethods]
    exact .bind hmethod fun _ _ hc₁ => .bind (ih hrest hc₁) fun _ _ hc₂ => .pure hc₂

theorem actionEnum_named (hsite : ∀ path, NamedAround digits { package, context, path })
    (keys : List String) (hc : c.AllNamed (IsTypeName digits)) :
    Resolution.Outcome (resolveSeparateEnum s actionEnumName (actionEnumNode keys) package context)
      c (fun _ c' => c'.AllNamed (IsTypeName digits)) fun _ => True := by
  have hname : IsTypeName digits actionEnumName := Identifier.isTypeName_of_capital rfl rfl
  refine resolveSeparateEnum_outcome trivial fun _ _ _ _ => declareEnum_named (hsite _) ?_ ?_ hc
  all_goals
    rintro _ ⟨⟩
    exact hname.isHint

/-- An interface of actions is called by its owner, in the feature. -/
theorem claimInterface_named (hfeature : ∀ feature ∈ feature?, IsTypeName digits feature)
    {owner : String} (howner : IsTypeName digits owner) (fingerprint : Fingerprint)
    (hc : c.AllNamed (IsTypeName digits)) :
    Resolution.Outcome (claimCandidate (owner ++ "Actions") none feature? package fingerprint) c
      (fun claim? c' =>
        (∀ claim ∈ claim?, IsTypeName digits claim.name) ∧ c'.AllNamed (IsTypeName digits))
      fun _ => True := by
  have hname : IsTypeName digits (owner ++ "Actions") :=
    howner.append (List.all_eq_true.mp (by decide))
  have hcandidate {taken : List String} {found : String}
      (hmem : found ∈ Identifier.searchCandidates (owner ++ "Actions") none feature? taken) :
      IsTypeName digits found :=
    Identifier.isTypeName_rule.of_mem_searchCandidates hname (by simp) hfeature hmem
  refine claimCandidate_outcome ⟨nofun, hc⟩ ?_ ?_
  · rintro found _ hmem -
    refine ⟨?_, hc⟩
    rintro _ ⟨⟩
    exact hcandidate hmem
  · rintro found _ hmem -
    refine ⟨?_, hc.classes, hc.aliases, hc.separate, hc.inline⟩
    rintro _ ⟨⟩
    exact hcandidate hmem

theorem declareActions_named (hfeature : ∀ feature ∈ feature?, IsTypeName digits feature)
    {actions : OrderedMap String ActionAffordance}
    (hactions : ∀ e ∈ actions.entries,
      IsHint digits e.1 ∧ ∀ schema ∈ e.2.schemas, schema.AllTexts (IsHint digits))
    {owner : String} (howner : IsTypeName digits owner) (hc : c.AllNamed (IsTypeName digits)) :
    Resolution.Outcome (declareActions s actions owner package feature?) c
      (fun i? c' => (∀ i ∈ i?, IsTypeName digits i.name) ∧ c'.AllNamed (IsTypeName digits))
      fun _ => True := by
  have hsite (path : String) :
      NamedAround digits { package, context := { role := .other, feature? }, path } :=
    namedAround_of_root rfl hfeature package path
  unfold declareActions
  split
  · exact .pure ⟨nofun, hc⟩
  · dsimp only
    refine .bind (actionEnum_named hsite _ hc) fun _ c₁ hc₁ => ?_
    refine .bind (actionMethods_named hsite hactions hc₁) fun methods c₂ hc₂ => ?_
    refine .bind (claimInterface_named hfeature howner _ hc₂) ?_
    rintro (_ | claim) c₃ ⟨hclaim, hc₃⟩
    · exact .throw trivial
    · refine .pure ⟨?_, hc₃⟩
      rintro _ ⟨⟩
      exact hclaim claim rfl

/-! ## Things -/

theorem declareAttributes_named {model : ThingModel} (h : model.AllTexts (IsHint digits)) :
    Resolution.Outcome (declareAttributes s model package) {}
      (fun _ c => c.AllNamed (IsTypeName digits)) fun _ => True := by
  have hempty := allNamed_empty (IsTypeName digits)
  have hname : IsTypeName digits attributesName := Identifier.isTypeName_of_capital rfl rfl
  unfold declareAttributes
  split
  · exact .pure hempty
  · refine .bind (.liftExcept (Q := fun properties c =>
      (∀ property ∈ properties, IsHint digits property.1 ∧ property.2.NamedBy (IsHint digits)) ∧
        {} = c) (fun properties hread => ⟨h.propertyNodes hread, rfl⟩) trivial) ?_
    rintro properties _ ⟨hproperties, rfl⟩
    have hnode : (SchemaNode.ofProperties properties model.requiredProperties
        (some attributesName)).NamedBy (IsHint digits) :=
      .ofProperties (by rintro _ ⟨⟩; exact hname.isHint) hproperties
    refine .bind ((namesTypes s digits _ hnode).ofClass (namedAround_of_root rfl (by simp) _ _)
      hname.isHint hempty) fun _ _ h => .pure h.2

theorem featureName_eq_ok {feature : LoadedFeature} {name : String}
    (h : featureName feature = .ok name) :
    (name ∈ feature.link.instanceName? ∨ name ∈ feature.model.title?) ∧
      Identifier.className name ≠ "" := by
  unfold featureName at h
  dsimp only at h
  split at h
  · rename_i hname
    cases h
    obtain ⟨hor, hne⟩ := Option.filter_eq_some_iff.mp hname
    refine ⟨?_, by simpa using hne⟩
    exact (Option.or_eq_some_iff.mp hor).imp_right And.right
  · cases h

theorem declareFeature_named {feature : LoadedFeature}
    (h : ∀ text ∈ feature.texts, IsHint digits text) (hc : c.AllNamed (IsTypeName digits)) :
    Resolution.Outcome (declareFeature s package feature) c
      (fun f c' => (∀ i ∈ f.actions?, IsTypeName digits i.name) ∧
        c'.AllNamed (IsTypeName digits)) fun _ => True := by
  obtain ⟨hinstance, htexts⟩ := List.forall_mem_append.mp h
  have hmodel := ThingModel.allTexts_iff.mpr htexts
  unfold declareFeature
  refine .bind (.liftExcept (Q := fun name c' =>
    (IsHint digits name ∧ Identifier.className name ≠ "") ∧ c = c') (fun name hname => ?_)
    trivial) ?_
  · obtain ⟨hsource, hne⟩ := featureName_eq_ok hname
    refine ⟨⟨?_, hne⟩, rfl⟩
    rcases hsource with hmem | hmem
    · exact hinstance name (Option.mem_toList.mpr hmem)
    · exact hmodel.title name hmem
  rintro name _ ⟨⟨hname, hne⟩, rfl⟩
  dsimp only
  have hclass := hname.className hne
  have hfeature : ∀ feature ∈ some (Identifier.className name), IsTypeName digits feature := by
    rintro _ ⟨⟩
    exact hclass
  refine .bind (.liftExcept (Q := fun node c' => node.NamedBy (IsHint digits) ∧ c = c')
    (fun node hnode => ⟨hmodel.featureNode hname hnode, rfl⟩) trivial) ?_
  rintro node _ ⟨hnode, rfl⟩
  refine .bind ((namesTypes s digits node hnode).ofClass (namedAround_of_root rfl hfeature _ _)
    hclass.isHint hc) ?_
  rintro featureClass c₁ ⟨htype, hc₁⟩
  refine .bind (declareActions_named hfeature hmodel.actions htype hc₁) ?_
  exact fun _ _ hactions => .pure hactions

theorem declareFeatures_named {features : List LoadedFeature}
    (h : ∀ feature ∈ features, ∀ text ∈ feature.texts, IsHint digits text) :
    ∀ {c : Catalog}, c.AllNamed (IsTypeName digits) →
      Resolution.Outcome (declareFeatures s package features) c
        (fun declared c' => (∀ f ∈ declared, ∀ i ∈ f.actions?, IsTypeName digits i.name) ∧
          c'.AllNamed (IsTypeName digits)) fun _ => True := by
  induction features with
  | nil => exact fun hc => .pure ⟨nofun, hc⟩
  | cons feature rest ih =>
    intro c hc
    obtain ⟨hfeature, hrest⟩ := List.forall_mem_cons.mp h
    rw [declareFeatures]
    refine .bind (declareFeature_named hfeature hc) ?_
    rintro declared c₁ ⟨hdeclared, hc₁⟩
    refine .bind (ih hrest hc₁) ?_
    rintro others c₂ ⟨hothers, hc₂⟩
    exact .pure ⟨List.forall_mem_cons.mpr ⟨hdeclared, hothers⟩, hc₂⟩

theorem isTypeName_thingName {model : ThingModel} (h : model.AllTexts (IsHint digits)) :
    IsTypeName digits (thingName model) := by
  have hdefault : IsTypeName digits defaultThingName := Identifier.isTypeName_of_capital rfl rfl
  have hname : IsHint digits (model.nameOr defaultThingName) := by
    unfold ThingModel.nameOr
    cases htitle : model.title? with
    | none => exact hdefault.isHint
    | some title =>
      dsimp only
      split
      · exact hdefault.isHint
      · exact h.title title htitle
  unfold thingName
  dsimp only
  split
  · exact hdefault
  · rename_i hne
    exact hname.className (by simpa using hne)

end Assembly

/-- The names of all types of a model: classes, aliases, enums and interfaces of actions. -/
def GeneratedModel.typeNames (model : GeneratedModel) : List String :=
  model.catalog.typeNames ++ model.interfaces.map ActionInterface.name

namespace Assembly

theorem declareOwn_named {package : String} {model : ThingModel}
    (hmodel : model.AllTexts (IsHint digits)) :
    Resolution.Outcome (declareOwn s model package) {}
      (fun own c => (∀ i ∈ own.2, IsTypeName digits i.name) ∧ c.AllNamed (IsTypeName digits))
      fun _ => True := by
  unfold declareOwn
  refine .bind (declareAttributes_named hmodel) fun _ c₁ hc₁ => ?_
  refine .bind (declareActions_named (by simp) hmodel.actions (isTypeName_thingName hmodel) hc₁) ?_
  exact fun _ _ hactions => .pure hactions

theorem declareAll_named (hvalid : Package.isValid package) (s : ResolutionSettings)
    {thing : LoadedThing} (h : ∀ text ∈ thing.texts, IsHint digits text) :
    Resolution.Outcome (declareAll s thing package) {}
      (fun model _ => ∀ name ∈ model.typeNames, IsTypeName digits name) fun _ => True := by
  obtain ⟨htexts, hfeatures⟩ := List.forall_mem_append.mp h
  have hmodel := ThingModel.allTexts_iff.mpr htexts
  refine (declareAll_outcome hvalid (Q := fun own features c =>
    (∀ i ∈ own.2, IsTypeName digits i.name) ∧
      (∀ f ∈ features, ∀ i ∈ f.actions?, IsTypeName digits i.name) ∧
      c.AllNamed (IsTypeName digits)) (declareOwn_named hmodel) ?_).imp ?_
  · rintro own c₁ ⟨hactions, hc₁⟩
    refine (declareFeatures_named (fun feature hmem text htext => ?_) hc₁).imp
      fun _ _ h => ⟨hactions, h⟩
    exact hfeatures text (List.mem_flatMap.mpr ⟨feature, hmem, htext⟩)
  · rintro model _ ⟨c, ⟨hactions, hothers, hc⟩, hcompletes⟩
    obtain ⟨taken, hcandidate⟩ := hcompletes.candidate
    have hthing : IsTypeName digits model.thing.name :=
      Identifier.isTypeName_rule.of_mem_searchCandidates (isTypeName_thingName hmodel) (by simp)
        (by simp) hcandidate
    have hcatalog : model.catalog.AllNamed (IsTypeName digits) := by
      rw [hcompletes.catalog]
      refine hc.addClass fun name hmem => ?_
      obtain rfl : name = model.thing.name := List.mem_singleton.mp hmem
      exact hthing
    refine List.forall_mem_append.mpr ⟨hcatalog.typeNames, List.forall_mem_map.mpr ?_⟩
    refine List.forall_mem_append.mpr ⟨fun i hi => hactions i (Option.mem_toList.mp hi), ?_⟩
    intro i hi
    obtain ⟨f, hf, hi⟩ := List.mem_filterMap.mp hi
    exact hothers f hf i hi

end Assembly

/-- The digits that texts of a Thing start with, apart from other signs. -/
def LoadedThing.leadingDigits (thing : LoadedThing) (c : Char) : Prop :=
  ∃ text ∈ thing.texts, text.toList.find? Unicode.isAlphanumeric = some c

/-- If the texts of a Thing are of ASCII, its types are called as types are, and those with a digit
in front start as one of the texts. -/
theorem GeneratedModel.ofThing_named {s : ResolutionSettings} {thing : LoadedThing}
    (h : ∀ text ∈ thing.texts, Identifier.AsciiWords text.toList) {package : String}
    (hvalid : Package.isValid package) {model : GeneratedModel}
    (hmodel : GeneratedModel.ofThing s thing package = .ok model) :
    ∀ name ∈ model.typeNames, IsTypeName thing.leadingDigits name := by
  refine of_declareAll (Assembly.declareAll_named hvalid s fun text htext => ?_) hmodel
  exact ⟨h text htext, fun c hc _ => ⟨text, htext, hc⟩⟩

end ThingTypes
