import ThingTypes.Proofs.Generation.Assembled
import ThingTypes.Proofs.Generation.BaseChains
import ThingTypes.Proofs.Generation.Results
import ThingTypes.Proofs.Json.Agreement

/-
  The features of a Thing, from the links that declare them to the fields of its class. A link to a
  sub-feature stands in the model of the Thing or in one of its bases, and the links of a base come
  before those of the models above it. Each link makes one field, in this order. The key of the
  field is the name of a property that is made of the name in the link, and so it is the name in the
  link only where that names a property as it is.

  Documents are loaded in any monad, so what is known of them is a relation to their locations that
  holds of everything that is loaded. Whatever it is, the models that are merged are read from such
  documents; and if it leaves one document for each location, they are determined by it.
-/

namespace ThingTypes

variable {m : Type → Type} [Monad m]

/-! ## Loading -/

/-- The document at a location with its references inlined. -/
def Loading.inlinedDocument (load : Loader m) (o : GenerationOptions) (location : String) :
    InlineM m Json := do
  let document ← loadDocument load location
  inlineReferences load o.inliningSettings location document

/-- Inlined documents are related to their locations, as long as what is kept has the invariant. -/
structure Loader.Inlines (load : Loader m) (o : GenerationOptions) (Kept : DocumentCache → Prop)
    (Inlined : String → Json → Prop) : Prop where
  empty : Kept ∅
  document : ∀ location,
    InlineM.Maintains Kept (Inlined location) (Loading.inlinedDocument load o location)

/-- Documents without references are what they are when they are inlined. -/
theorem Loader.inlines_ofDocuments [LawfulMonad m] {documents : List (String × Json)}
    (h : ∀ e ∈ documents, e.2.referenceSites = []) (o : GenerationOptions) :
    (Loader.ofDocuments documents : Loader m).Inlines o (fun _ => True)
      fun location document => Entries.get? location documents = some document where
  empty := trivial
  document location := by
    apply InlineM.Maintains.bind (P := fun document =>
      Entries.get? location documents = some document)
    · have hload : Yields (fun result => ∀ document, result = .ok document →
          Entries.get? location documents = some document)
          (Loader.ofDocuments documents location : m (Except LoadFault Json)) := by
        apply Yields.pure
        intro document hdocument
        split at hdocument
        · cases hdocument
          assumption
        · cases hdocument
      unfold loadDocument
      apply (InlineM.Maintains.lift hload).bind
      intro result hresult
      cases result with
      | error fault => exact .throw _
      | ok document => exact .pure (hresult document rfl)
    · intro document hdocument
      unfold inlineReferences Reference.inlinePasses
      rw [h _ (Entries.mem_of_get? hdocument)]
      exact .pure hdocument

variable {Inlined : String → Json → Prop} {location : String}

/-- The model is read from an inlined document. -/
def IsReadFrom (Inlined : String → Json → Prop) (e : LocatedModel) : Prop :=
  ∃ document, Inlined e.1 document ∧ ThingModel.ofDocument document e.1 = .ok e.2

theorem IsReadFrom.declaresLinks {e : LocatedModel} (h : IsReadFrom Inlined e) :
    DeclaresLinks e := by
  obtain ⟨document, -, h⟩ := h
  exact declaresLinks_of_document h

/-- The model at a location and its bases, each of them the base of the one before, and the last one
without a base; and what they are merged to. -/
structure IsComposed (Inlined : String → Json → Prop) (location : String)
    (chain : List LocatedModel) (merged : ThingModel) : Prop where
  first : chain.head?.map Prod.fst = some location
  read : ∀ e ∈ chain, IsReadFrom Inlined e
  linked : chain.IsChain ExtendsTo
  last : ∀ e ∈ chain.getLast?, e.2.baseLinks = []
  isMerged : IsMerged chain merged

/-- The same before the base of the last model is looked up. -/
structure IsComposedUpTo (Inlined : String → Json → Prop) (location : String)
    (front : List LocatedModel) (last : LocatedModel) (merged : ThingModel) : Prop where
  first : (front ++ [last]).head?.map Prod.fst = some location
  read : ∀ e ∈ front ++ [last], IsReadFrom Inlined e
  linked : (front ++ [last]).IsChain ExtendsTo
  isMerged : IsMerged (front ++ [last]) merged.withoutBaseLinks
  baseLinks : merged.baseLinks = last.2.baseLinks

namespace IsComposedUpTo

variable {front : List LocatedModel} {last : LocatedModel} {merged : ThingModel}

theorem single {e : LocatedModel} (h : IsReadFrom Inlined e) :
    IsComposedUpTo Inlined e.1 [] e e.2 where
  first := rfl
  read _ he := List.mem_singleton.mp he ▸ h
  linked := .singleton e
  isMerged := .single h.declaresLinks
  baseLinks := rfl

theorem declaresLinks (h : IsComposedUpTo Inlined location front last merged) :
    DeclaresLinks last :=
  (h.read last (List.mem_append_right _ (List.mem_singleton_self last))).declaresLinks

theorem isComposed (h : IsComposedUpTo Inlined location front last merged)
    (hlast : merged.baseLinks = []) : IsComposed Inlined location (front ++ [last]) merged where
  first := h.first
  read := h.read
  linked := h.linked
  last e he := by
    rw [List.getLast?_append_of_ne_nil _ (List.cons_ne_nil _ _), List.getLast?_singleton] at he
    cases he
    exact h.baseLinks ▸ hlast
  isMerged := ThingModel.withoutBaseLinks_of_nil hlast ▸ h.isMerged

/-- One base more. -/
theorem mergeBase (h : IsComposedUpTo Inlined location front last merged) {link : Link}
    (hlink : merged.baseLinks = [link]) {base : ThingModel}
    (hbase : IsReadFrom Inlined (Location.resolve last.1 link.href, base)) :
    IsComposedUpTo Inlined location (front ++ [last]) (Location.resolve last.1 link.href, base)
      (merged.mergeBase base) where
  first := by
    rw [List.head?_append_of_ne_nil _ (by simp)]
    exact h.first
  read e he := by
    obtain he | he := List.mem_append.mp he
    · exact h.read e he
    · exact List.mem_singleton.mp he ▸ hbase
  linked := by
    rw [List.append_assoc]
    apply List.isChain_split.mpr
    exact ⟨h.linked, .cons_cons ⟨link, h.baseLinks ▸ hlink, rfl⟩ (.singleton _)⟩
  isMerged := h.isMerged.mergeBase hbase.declaresLinks
  baseLinks := ThingModel.baseLinks_mergeBase merged base

end IsComposedUpTo

theorem ThingModel.baseLinks_of_extendsLink {model : ThingModel} {location : String}
    {link? : Option Link} (h : model.extendsLink location = .ok link?) :
    model.baseLinks = link?.toList := by
  unfold extendsLink at h
  rw [← baseLinks] at h
  split at h <;> cases h <;> assumption

/-- What has been merged up to a last model, which is at `current`. -/
def IsComposedAt (Inlined : String → Json → Prop) (location : String) (merged : ThingModel)
    (current : String) : Prop :=
  ∃ front last, last.1 = current ∧ IsComposedUpTo Inlined location front last merged

/-- The next base is where the link in the last model leads. -/
theorem IsComposedAt.mergeBase {merged base : ThingModel} {current : String} {link : Link}
    (h : IsComposedAt Inlined location merged current)
    (hlink : merged.extendsLink current = .ok (some link))
    (hbase : IsReadFrom Inlined (Location.resolve (link.origin?.getD current) link.href, base)) :
    IsComposedAt Inlined location (merged.mergeBase base)
      (Location.resolve (link.origin?.getD current) link.href) := by
  obtain ⟨front, last, rfl, h⟩ := h
  have hlinks : merged.baseLinks = [link] := ThingModel.baseLinks_of_extendsLink hlink
  have hmem : link ∈ last.2.baseLinks := by simp [← h.baseLinks, hlinks]
  have horigin : link.origin?.getD last.1 = last.1 := by
    rw [h.declaresLinks link (List.mem_of_mem_filter hmem), Option.getD_some]
  rw [horigin] at hbase ⊢
  exact ⟨front ++ [last], _, rfl, h.mergeBase hlinks hbase⟩

/-- Where each location has one document, nothing else can be loaded from a location. -/
theorem IsComposed.chain_eq
    (hone : ∀ {location document document'}, Inlined location document →
      Inlined location document' → document = document')
    {chain chain' : List LocatedModel} {merged merged' : ThingModel}
    (h : IsComposed Inlined location chain merged)
    (h' : IsComposed Inlined location chain' merged') : chain = chain' := by
  have hsame {e e' : LocatedModel} (he : IsReadFrom Inlined e) (he' : IsReadFrom Inlined e')
      (hlocation : e.1 = e'.1) : e = e' := by
    obtain ⟨document, hdocument, hmodel⟩ := he
    obtain ⟨document', hdocument', hmodel'⟩ := he'
    rw [← hlocation] at hdocument' hmodel'
    rw [hone hdocument hdocument', hmodel'] at hmodel
    exact Prod.ext hlocation (Except.ok.inj hmodel).symm
  obtain ⟨hfirst, hread, hlinked, hlast, -⟩ := h
  obtain ⟨hfirst', hread', hlinked', hlast', -⟩ := h'
  induction chain generalizing location chain' with
  | nil => cases hfirst
  | cons e rest ih =>
    obtain ⟨e', rest', rfl⟩ : ∃ e' rest', chain' = e' :: rest' := by
      cases chain' with
      | nil => cases hfirst'
      | cons e' rest' => exact ⟨e', rest', rfl⟩
    obtain ⟨hhead, hrest⟩ := List.forall_mem_cons.mp hread
    obtain ⟨hhead', hrest'⟩ := List.forall_mem_cons.mp hread'
    obtain rfl : e = e' := hsame hhead hhead' (Option.some.inj (hfirst.trans hfirst'.symm))
    congr 1
    -- the next location is that of the one base, if there is one
    cases rest with
    | nil =>
      cases rest' with
      | nil => rfl
      | cons f' rest' =>
        obtain ⟨link, hlink, -⟩ := (List.isChain_cons_cons.mp hlinked').1
        rw [hlast e rfl] at hlink
        cases hlink
    | cons f rest =>
      obtain ⟨⟨link, hlink, hnext⟩, hlinked⟩ := List.isChain_cons_cons.mp hlinked
      cases rest' with
      | nil =>
        rw [hlast' e rfl] at hlink
        cases hlink
      | cons f' rest' =>
        obtain ⟨⟨link', hlink', hnext'⟩, hlinked'⟩ := List.isChain_cons_cons.mp hlinked'
        obtain rfl : link = link' := List.singleton_inj.mp (hlink.symm.trans hlink')
        rw [List.getLast?_cons_cons] at hlast hlast'
        exact ih rfl hrest hlinked hlast
          (congrArg some (hnext'.symm.trans hnext)) hrest' hlinked' hlast'

namespace Loading

open InlineM (Maintains)

variable [LawfulMonad m] {load : Loader m} {o : GenerationOptions} {Kept : DocumentCache → Prop}
  (hload : load.Inlines o Kept Inlined)
include hload

theorem maintains_loadSingle (location : String) :
    Maintains Kept (fun model => IsReadFrom Inlined (location, model))
      (loadSingle load o location) := by
  have hsingle : loadSingle load o location = inlinedDocument load o location >>= fun inlined =>
      liftExcept (ThingModel.ofDocument inlined location) := by
    rw [inlinedDocument, bind_assoc]
    rfl
  rw [hsingle]
  apply (hload.document location).bind
  intro inlined hinlined
  exact .liftExcept fun model hmodel => ⟨inlined, hinlined, hmodel⟩

theorem maintains_loadModel (location : String) :
    Maintains Kept (fun model => ∃ chain, IsComposed Inlined location chain model)
      (loadModel load o location) := by
  have hfirst {model : ThingModel} (hmodel : IsReadFrom Inlined (location, model)) :
      IsComposedAt Inlined location model location := ⟨[], (location, model), rfl, .single hmodel⟩
  have hmerged := maintains_loadModel_of_loadSingle (maintains_loadSingle hload) hfirst
    IsComposedAt.mergeBase
  apply hmerged.mono
  intro merged h
  obtain ⟨last, ⟨front, e, -, hup⟩, hlast⟩ := h
  exact ⟨front ++ [e], hup.isComposed (ThingModel.baseLinks_of_extendsLink hlast)⟩

end Loading

/-! ## Links -/

theorem forall₂_comp {α β γ : Type} {R : α → β → Prop} {S : β → γ → Prop} {T : α → γ → Prop}
    {as : List α} {bs : List β} {cs : List γ} (hR : List.Forall₂ R as bs)
    (hS : List.Forall₂ S bs cs) (h : ∀ a b c, R a b → S b c → T a c) : List.Forall₂ T as cs := by
  induction hR generalizing cs with
  | nil =>
    cases hS
    exact .nil
  | cons hab _ ih =>
    cases hS with
    | cons hbc hrest => exact .cons (h _ _ _ hab hbc) (ih hrest)

/-- The links to sub-features, those of the last base in front, each with the location of the
document that declares it. -/
def submodelLinks (chain : List LocatedModel) : List (String × Link) :=
  chain.reverse.flatMap fun e => e.2.submodels.map (e.1, ·)

theorem IsComposed.submodels {chain : List LocatedModel} {merged : ThingModel}
    (h : IsComposed Inlined location chain merged) :
    merged.submodels = (submodelLinks chain).map Prod.snd := by
  have hkept : ∀ l : Link, (decide (l.kind = .submodel) && decide (l.kind ≠ .extends)) =
      decide (l.kind = .submodel) := by
    intro l
    cases l.kind <;> rfl
  rw [ThingModel.submodels, h.isMerged.links, submodelLinks, List.filter_flatMap, List.map_flatMap]
  apply List.flatMap_congr
  intro e he
  have hdeclares := (h.read e (List.mem_reverse.mp he)).declaresLinks
  rw [hdeclares.map_filter, List.filter_filter, List.map_map]
  simp only [hkept, Function.comp_def, List.map_id', ThingModel.submodels]

theorem IsComposed.origin_of_mem {chain : List LocatedModel} {merged : ThingModel}
    (h : IsComposed Inlined location chain merged) {p : String × Link}
    (hp : p ∈ submodelLinks chain) : p.2.origin? = some p.1 := by
  obtain ⟨e, he, hp⟩ := List.mem_flatMap.mp hp
  obtain ⟨link, hlink, rfl⟩ := List.mem_map.mp hp
  have hdeclares := (h.read e (List.mem_reverse.mp he)).declaresLinks
  exact hdeclares link (List.mem_of_mem_filter hlink)

/-- Each link leads on from the document that declares it. -/
theorem IsComposed.features {chain : List LocatedModel} {merged : ThingModel}
    (h : IsComposed Inlined location chain merged) {features : List LoadedFeature}
    (hfeatures : List.Forall₂ (LoadedFeature.IsFor location) merged.submodels features) :
    List.Forall₂ (fun p feature => feature.link = p.2 ∧
      feature.location = Location.resolve p.1 p.2.href) (submodelLinks chain) features := by
  rw [h.submodels, List.forall₂_map_left_iff] at hfeatures
  refine (forall₂_congr_mem fun p hp feature _ => ?_).mp hfeatures
  have horigin : p.2.origin?.getD location = p.1 := by
    rw [h.origin_of_mem hp, Option.getD_some]
  exact ⟨fun hfor => ⟨hfor.link_eq, horigin ▸ hfor.location_eq⟩,
    fun hfor => ⟨hfor.1, horigin.symm ▸ hfor.2⟩⟩

/-! ## Fields -/

/-- The field of a Thing for a feature. -/
def FeatureModel.field (feature : FeatureModel) : FieldDecl :=
  .ofKey feature.name (.classType feature.featureClass) true

/-- The feature that is declared for a link, and its field. The key of the field is made of the name
in the link. -/
structure FeatureModel.IsFor (p : String × Link) (feature : FeatureModel) : Prop where
  location : feature.location = Location.resolve p.1 p.2.href
  type : feature.field.type = .classType feature.featureClass
  jsonName : ∀ name, p.2.instanceName? = some name →
    feature.field.jsonName = Identifier.propertyName name
  verbatim : ∀ name, p.2.instanceName? = some name →
    (feature.field.jsonName = name ↔ Identifier.propertyName name = name)

namespace Assembly

open Resolution

variable {s : ResolutionSettings} {package : String} {c : Catalog}

/-- What a feature takes over from what was loaded for it. -/
structure Declares (loaded : LoadedFeature) (feature : FeatureModel) : Prop where
  location : feature.location = loaded.location
  name : ∀ name, loaded.link.instanceName? = some name →
    feature.name = Identifier.propertyName name

theorem featureName_of_instanceName {feature : LoadedFeature} {name given : String}
    (h : featureName feature = .ok name) (hgiven : feature.link.instanceName? = some given) :
    name = given := by
  unfold featureName at h
  rw [hgiven, Option.some_or] at h
  dsimp only at h
  split at h
  · rename_i hname
    cases h
    exact (Option.some.inj (Option.filter_eq_some_iff.mp hname).1).symm
  · cases h

theorem declareFeature_declares (feature : LoadedFeature) :
    Resolution.Outcome (declareFeature s package feature) c
      (fun declared _ => Declares feature declared) fun _ => True := by
  unfold declareFeature
  apply Outcome.bind (Q := fun name _ => featureName feature = .ok name)
    (.liftExcept (fun _ hname => hname) trivial)
  intro name _ hname
  apply Outcome.bind (Resolution.Outcome.trivially _)
  intro node _ _
  apply Outcome.bind (Resolution.Outcome.trivially _)
  intro featureClass _ _
  apply Outcome.bind (Resolution.Outcome.trivially _)
  intro actions? _ _
  apply Outcome.pure
  refine ⟨rfl, ?_⟩
  intro given hgiven
  rw [featureName_of_instanceName hname hgiven]

theorem declareFeatures_declares (features : List LoadedFeature) :
    ∀ {c : Catalog}, Resolution.Outcome (declareFeatures s package features) c
      (fun declared _ => List.Forall₂ Declares features declared) fun _ => True := by
  induction features with
  | nil => exact .pure .nil
  | cons feature rest ih =>
    intro c
    rw [declareFeatures]
    apply Outcome.bind (declareFeature_declares feature)
    intro declared _ hdeclared
    apply Outcome.bind ih
    intro others _ hothers
    exact .pure (.cons hdeclared hothers)

end Assembly

namespace GeneratedModel

open Assembly

variable {s : ResolutionSettings} {package : String} {model : GeneratedModel}

/-- The class of a Thing has its attributes and its features for fields. -/
theorem ofThing_fields {thing : LoadedThing} (hvalid : Package.isValid package)
    (h : ofThing s thing package = .ok model) :
    List.Forall₂ Declares thing.features model.features ∧
      ∃ d, model.thingClass? = some d ∧
        d.fields = thingFields model.attributes? model.features := by
  apply of_declareAll ((declareAll_outcome hvalid (P := fun _ _ => True)
    (Q := fun _ features _ => List.Forall₂ Declares thing.features features)
    (Resolution.Outcome.trivially _) fun _ _ _ => declareFeatures_declares thing.features).imp ?_) h
  intro model _ hall
  obtain ⟨c, hfeatures, hcompletes⟩ := hall
  let d := thingDecl s thing.model (thingFields model.attributes? model.features) model.thing
  refine ⟨hfeatures, d, ?_, rfl⟩
  rw [thingClass?, hcompletes.catalog]
  exact Catalog.class?_addClass_self c d

/-- In every model that is built, the class of the Thing has, behind the field for its attributes,
one field for each link to a sub-feature, typed by the class of the feature. The links are those of
the model and of all its bases, the ones of the last base in front. The key of a field is the name
of a property that is made of the name in the link, which is the name in the link exactly if it
names a property as it is. -/
theorem build_fields_of_links [LawfulMonad m] {load : Loader m} {o : GenerationOptions}
    {Kept : DocumentCache → Prop} (hload : load.Inlines o Kept Inlined) (s : ResolutionSettings)
    (location package : String) :
    Yields (fun result => ∀ model, result = .ok model →
        ∃ chain merged, IsComposed Inlined location chain merged ∧
          List.Forall₂ FeatureModel.IsFor (submodelLinks chain) model.features ∧
          ∃ d, model.thingClass? = some d ∧
            d.fields =
              (model.attributes?.map fun type =>
                FieldDecl.ofKey "attributes" (.classType type) true).toList ++
              model.features.map FeatureModel.field)
      (build load o s location package) := by
  have hthing := Loading.yields_loadThing (Loading.maintains_loadModel hload) hload.empty location
  apply yields_build hthing
  intro hvalid thing hthing model hmodel
  obtain ⟨⟨chain, hchain⟩, hloaded⟩ := hthing
  have hloaded := hloaded.imp fun _ _ hfeature => hfeature.1
  obtain ⟨hdeclared, d, hd, hfields⟩ := ofThing_fields hvalid hmodel
  refine ⟨chain, thing.model, hchain, ?_, d, hd, hfields⟩
  apply forall₂_comp (hchain.features hloaded) hdeclared
  intro p loaded feature hloaded hdeclared
  have hname : ∀ name, p.2.instanceName? = some name →
      feature.field.jsonName = Identifier.propertyName name := by
    intro name hname
    exact hdeclared.name name (hloaded.1 ▸ hname)
  refine ⟨hdeclared.location.trans hloaded.2, rfl, hname, ?_⟩
  intro name hgiven
  rw [hname name hgiven]

end GeneratedModel

/-- A home with a room, on top of a building with a door. -/
def homeDocuments : List (String × Json) := [
  ("home.json", .object [("title", .string "Home"), ("links", .array [
    .object [("rel", .string "tm:extends"), ("href", .string "building.json")],
    .object [("rel", .string "tm:submodel"), ("href", .string "room.json"),
      ("instanceName", .string "living-room")]])]),
  ("building.json", .object [("links", .array [
    .object [("rel", .string "tm:submodel"), ("href", .string "door.json"),
      ("instanceName", .string "door")]])]),
  ("room.json", .object [("properties", .object [
    ("warm", .object [("type", .string "boolean")])])]),
  ("door.json", .object [("properties", .object [
    ("open", .object [("type", .string "boolean")])])])]

def homeBuild : Id (Except GenerationError GeneratedModel) :=
  GeneratedModel.build (Loader.ofDocuments homeDocuments) {} { digest := plainDigest }
    "home.json" "p"

/-- The room is not found under its name. -/
theorem homeBuild_renames_room : ∃ model chain d, homeBuild = .ok model ∧
    (submodelLinks chain).map (fun p => (p.1, p.2.instanceName?)) =
      [("building.json", some "door"), ("home.json", some "living-room")] ∧
    List.Forall₂ FeatureModel.IsFor (submodelLinks chain) model.features ∧
    model.thingClass? = some d ∧ d.fields.map FieldDecl.jsonName = ["door", "livingRoom"] := by
  have hrun : (match homeBuild with
      | .ok model => model.thingClass?.map fun d => d.fields.map FieldDecl.jsonName
      | .error _ => none) = some ["door", "livingRoom"] := by
    decide +kernel
  have hload : (Loader.ofDocuments homeDocuments : Loader Id).Inlines {} (fun _ => True)
      fun location document => Entries.get? location homeDocuments = some document :=
    Loader.inlines_ofDocuments (by decide) {}
  obtain ⟨proved, hproved⟩ :=
    GeneratedModel.build_fields_of_links hload { digest := plainDigest } "home.json" "p"
  let home := Loading.located homeDocuments "home.json"
  let building := Loading.located homeDocuments "building.json"
  cases h : homeBuild with
  | error e => simp [h] at hrun
  | ok model =>
    obtain ⟨chain, merged, hchain, hfeatures, d, hd, -⟩ := proved.2 model (hproved.trans h)
    have hchain' : IsComposed (fun location document =>
        Entries.get? location homeDocuments = some document) "home.json" [home, building]
        (home.2.mergeBase building.2) := by
      let link : Link :=
        { relation? := some extendsRelation, href := "building.json", origin? := some "home.json" }
      have hlink : home.2.baseLinks = [link] := by decide +kernel
      have hlocation : Location.resolve home.1 link.href = building.1 := by decide +kernel
      have hlast : (home.2.mergeBase building.2).baseLinks = [] := by decide +kernel
      have hhome : IsReadFrom (fun location document =>
          Entries.get? location homeDocuments = some document) home := ⟨_, rfl, rfl⟩
      have hbuilding : IsReadFrom (fun location document =>
          Entries.get? location homeDocuments = some document) building := ⟨_, rfl, rfl⟩
      have hbase : (Location.resolve home.1 link.href, building.2) = building :=
        Prod.ext hlocation rfl
      have hmerged := (IsComposedUpTo.single hhome).mergeBase hlink (hbase.symm ▸ hbuilding)
      rw [hbase] at hmerged
      exact hmerged.isComposed hlast
    rw [h] at hrun
    dsimp only at hrun
    rw [hd, Option.map_some] at hrun
    have hsame := hchain.chain_eq (fun hdocument hdocument' =>
      Option.some.inj (hdocument.symm.trans hdocument')) hchain'
    refine ⟨model, chain, d, rfl, ?_, hfeatures, hd, Option.some.inj hrun⟩
    rw [hsame]
    decide +kernel

end ThingTypes
