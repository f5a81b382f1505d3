import ThingTypes.Generation.Assembly
import ThingTypes.Proofs.Identifier.Candidates
import ThingTypes.Proofs.Identifier.Segments
import ThingTypes.Proofs.Resolution.Isolation

/-
  In which packages the types of a Thing are declared. Its attributes and its actions have a package
  each, and all packages of a feature come below the segment of its name. What happens in other
  packages makes no difference there, and nothing is declared in them (`Local`).
-/

namespace ThingTypes

namespace Resolution

variable {mine : String → Bool} {package name : String} {parent? feature? : Option String}
  {fingerprint : Fingerprint}

theorem Local.claimCandidate (h : mine package) :
    Local mine (claimCandidate name parent? feature? package fingerprint) fun _ => True := by
  have hother : ¬(!mine package) = true := by simp [h]
  rw [claimCandidate_eq]
  refine ofCatalog (fun c => ?_) fun {c claim? c'} hclaim => ⟨?_, trivial⟩
  · rw [claimedCandidate, claimedCandidate, c.takenForClass_within h, c.claimClassName_within h]
    cases c.claimClassName package _ fingerprint <;> rfl
  · unfold claimedCandidate at hclaim
    split at hclaim
    · cases hclaim
      rfl
    · rename_i hclaimed
      cases hclaim
      exact c.within_claimClassName hother hclaimed

/-- The catalog stays as it is in other packages. -/
theorem Local.outcome {α : Type} {x : ResolveM α} {R : α → Prop} (h : Local mine x R)
    (c : Catalog) :
    Outcome x c (fun _ c' => c'.within (!mine ·) = c.within (!mine ·)) fun _ => True where
  of_run depth := by
    have hframe := (ResolutionState.within_eq_iff.mp (h.frame ⟨c, depth⟩)).1
    unfold leaves at hframe
    cases hx : x ⟨c, depth⟩ with
    | ok a st =>
      rw [hx] at hframe
      exact hframe
    | error e st => trivial

theorem Outcome.framed {α : Type} {x : ResolveM α} {R : α → Prop} {c : Catalog}
    {Q : α → Catalog → Prop} (h : Outcome x c Q fun _ => True) (hlocal : Local mine x R) :
    Outcome x c (fun a c' => Q a c' ∧ c'.within (!mine ·) = c.within (!mine ·)) fun _ => True :=
  (h.and (hlocal.outcome c)).mono (fun _ _ h => h) fun _ _ => trivial

/-- The numbered names never run out, so a candidate is always found. -/
theorem exists_claimedCandidate (name : String) (parent? feature? : Option String)
    (package : String) (fingerprint : Fingerprint) (c : Catalog) :
    ∃ claim c',
      claimedCandidate name parent? feature? package fingerprint c = (some claim, c') := by
  have hfound : (Identifier.searchCandidates name parent? feature?
      (c.takenForClass package fingerprint)).find?
        (!(c.takenForClass package fingerprint).contains ·) ≠ none := by
    obtain ⟨found, hfound⟩ := Identifier.exists_find?_numbered
      (Identifier.compoundName (some Identifier.sharedName) name)
      (c.takenForClass package fingerprint)
    rw [Identifier.searchCandidates_eq, List.find?_append, hfound]
    simp
  unfold claimedCandidate
  rcases c.claimClassName_cases package _ fingerprint with
    ⟨hnone, -⟩ | ⟨found, renamed, -, ⟨-, h⟩ | ⟨-, h⟩⟩
  · exact absurd hnone hfound
  · exact ⟨_, _, by rw [h]⟩
  · exact ⟨_, _, by rw [h]⟩

end Resolution

namespace Assembly

open Resolution

variable {s : ResolutionSettings} {mine : String → Bool} {package : String}
  {context : NamingContext}

/-! ## What is declared for a feature -/

theorem payloadType_local (hsite : ∀ path, SiteWithin (mine ·) { package, context, path })
    (schema? : Option Json) (fallback path : String) :
    Local mine (payloadType s schema? fallback path package context) fun _ => True := by
  have h := Local.stepRules s mine
  unfold payloadType
  cases schema? with
  | none => exact .pure trivial
  | some schema =>
    refine .bind (h.liftExcept _) fun node _ => ?_
    exact .bind ((h.byChildren node).1 _ _ (hsite _)) fun _ _ => .pure trivial

theorem actionMethods_local (hsite : ∀ path, SiteWithin (mine ·) { package, context, path })
    (actions : List (String × ActionAffordance)) :
    Local mine (actionMethods s package context actions) fun _ => True := by
  induction actions with
  | nil => exact .pure trivial
  | cons action rest ih =>
    have hmethod : Local mine (actionMethod s package context action.1 action.2) fun _ => True :=
      .bind (payloadType_local hsite _ _ _) fun _ _ =>
        .bind (payloadType_local hsite _ _ _) fun _ _ => .pure trivial
    exact .bind hmethod fun _ _ => .bind ih fun _ _ => .pure trivial

theorem declareActions_local (h : mine package) (actions : OrderedMap String ActionAffordance)
    (owner : String) (feature? : Option String) :
    Local mine (declareActions s actions owner package feature?) fun _ => True := by
  have hsite (path : String) :
      SiteWithin (mine ·) { package, context := { role := .other, feature? }, path } :=
    ⟨h, h, nofun⟩
  unfold declareActions
  split
  · exact .pure trivial
  · refine .bind ((Local.stepRules s mine).resolveSeparateEnum (hsite _)) fun _ _ => ?_
    refine .bind (actionMethods_local hsite _) fun _ _ => ?_
    refine .bind (.claimCandidate h) fun claim? _ => ?_
    cases claim? with
    | none => exact .throw _
    | some claim => exact .pure trivial

/-- The package of a feature. -/
def featurePackage (package segment : String) : String :=
  Package.child (Package.child package "features") segment

/-- The segment of the packages of a feature, if the feature has a name. -/
def featureSegment? (feature : LoadedFeature) : Option String :=
  (featureName feature).toOption.map Identifier.packageSegment

/-- A feature is declared in the packages below its segment. -/
theorem declareFeature_local {feature : LoadedFeature}
    (h : ∀ segment ∈ featureSegment? feature, mine (featurePackage package segment) ∧
      mine (featurePackage package segment ++ ".properties") ∧
      mine (Package.child (featurePackage package segment) "actions")) :
    Local mine (declareFeature s package feature) fun _ => True := by
  have hrules := Local.stepRules s mine
  unfold declareFeature
  cases hname : featureName feature with
  | error e => exact .bind (Q := fun _ => False) (.throw e) fun _ h => h.elim
  | ok name =>
    obtain ⟨hinner, hproperties, hactions⟩ := h (Identifier.packageSegment name)
      (by simp [featureSegment?, hname, Except.toOption])
    refine .bind (Q := (· = name)) (.pure rfl) ?_
    rintro _ rfl
    refine .bind (hrules.liftExcept _) fun node _ => ?_
    refine .bind ((hrules.byChildren node).2 _ _ ⟨hinner, hproperties, nofun⟩) fun _ _ => ?_
    exact .bind (declareActions_local hactions _ _ _) fun _ _ => .pure trivial

/-! ## Segments -/

/-- The segment that comes after the package of all features. -/
def segmentOf (package q : String) : String :=
  String.ofList ((q.toList.drop (Package.child package "features" ++ ".").length).takeWhile
    (· != '.'))

theorem segmentOf_append (package : String) {segment rest : String}
    (hsegment : Package.isSegment segment.toList)
    (hrest : rest.toList.takeWhile (· != '.') = []) :
    segmentOf package (featurePackage package segment ++ rest) = segment := by
  have hchars : ∀ c ∈ segment.toList, (c != '.') = true := fun c hc => by
    simpa using Package.ne_dot_of_isSegment hsegment hc
  have hdrop : (featurePackage package segment ++ rest).toList.drop
      (Package.child package "features" ++ ".").length = segment.toList ++ rest.toList := by
    have hpackage : featurePackage package segment =
        Package.child package "features" ++ "." ++ segment := rfl
    rw [hpackage, String.toList_append, String.toList_append, List.append_assoc]
    exact List.drop_left' String.length_toList
  rw [segmentOf, hdrop, List.takeWhile_append_of_pos hchars, hrest, List.append_nil,
    String.ofList_toList]

/-- All packages that a feature is declared in come below its segment. -/
theorem segmentOf_feature (package : String) {feature : LoadedFeature} {segment : String}
    (h : segment ∈ featureSegment? feature) :
    segmentOf package (featurePackage package segment) = segment ∧
      segmentOf package (featurePackage package segment ++ ".properties") = segment ∧
      segmentOf package (Package.child (featurePackage package segment) "actions") = segment := by
  obtain ⟨name, -, rfl⟩ := Option.map_eq_some_iff.mp h
  have hsegment := Identifier.isSegment_packageSegment name
  refine ⟨?_, segmentOf_append package hsegment rfl, ?_⟩
  · have hbare : ("" : String).toList.takeWhile (· != '.') = [] := rfl
    simpa using segmentOf_append package hsegment hbare
  · rw [Package.child, String.append_assoc]
    exact segmentOf_append package hsegment rfl

/-- The packages of the features whose segments are wanted. -/
def segmentPackages (wanted : Option String → Bool) (package q : String) : Bool :=
  wanted (some (segmentOf package q))

theorem declareFeature_local_of_wanted (s : ResolutionSettings) (package : String)
    {wanted : Option String → Bool} {feature : LoadedFeature}
    (h : wanted (featureSegment? feature)) :
    Local (segmentPackages wanted package) (declareFeature s package feature) fun _ => True := by
  refine declareFeature_local fun segment hsegment => ?_
  obtain ⟨hinner, hproperties, hactions⟩ := segmentOf_feature package hsegment
  simp only [segmentPackages, hinner, hproperties, hactions]
  rw [Option.mem_def.mp hsegment] at h
  exact ⟨h, h, h⟩

/-! ## What is declared before the class of the Thing -/

theorem declareAttributes_local (h : mine (Package.child package "attributes"))
    (model : ThingModel) : Local mine (declareAttributes s model package) fun _ => True := by
  have hrules := Local.stepRules s mine
  unfold declareAttributes
  split
  · exact .pure trivial
  · refine .bind (hrules.liftExcept _) fun properties _ => ?_
    exact .bind ((hrules.byChildren _).2 _ _ ⟨h, h, nofun⟩) fun _ _ => .pure trivial

/-- The attributes of the Thing and its actions. -/
def declareOwn (s : ResolutionSettings) (model : ThingModel) (package : String) :
    ResolveM (Option TypeName × Option ActionInterface) := do
  let attributes? ← declareAttributes s model package
  let actions? ←
    declareActions s model.actions (thingName model) (Package.child package "actions") none
  return (attributes?, actions?)

/-- The class of the Thing comes last. -/
theorem declareAll_eq (s : ResolutionSettings) (thing : LoadedThing) (package : String) :
    declareAll s thing package = (do
      let own ← declareOwn s thing.model package
      let features ← declareFeatures s package thing.features
      let type ← declareThing s thing.model (thingName thing.model) package
        (thingFields own.1 features)
      return {
        package, thing := type, attributes? := own.1, actions? := own.2, features
        catalog := (← get).catalog }) := by
  simp only [declareAll, declareOwn, bind_assoc, pure_bind]

theorem declareOwn_local (hattributes : mine (Package.child package "attributes"))
    (hactions : mine (Package.child package "actions")) (model : ThingModel) :
    Local mine (declareOwn s model package) fun _ => True :=
  .bind (declareAttributes_local hattributes model) fun _ _ =>
    .bind (declareActions_local hactions _ _ _) fun _ _ => .pure trivial

theorem declareFeatures_local (features : List LoadedFeature)
    (h : ∀ feature ∈ features, ∀ segment ∈ featureSegment? feature,
      mine (featurePackage package segment) ∧
      mine (featurePackage package segment ++ ".properties") ∧
      mine (Package.child (featurePackage package segment) "actions")) :
    Local mine (declareFeatures s package features) fun _ => True := by
  induction features with
  | nil => exact .pure trivial
  | cons feature rest ih =>
    refine .bind (declareFeature_local (h feature List.mem_cons_self)) fun _ _ => ?_
    refine .bind (ih fun feature hmem => ?_) fun _ _ => .pure trivial
    exact h feature (List.mem_cons_of_mem _ hmem)

end Assembly

theorem GeneratedModel.ofThing_eq_answer (s : ResolutionSettings) (thing : LoadedThing)
    (package : String) :
    ofThing s thing package = Resolution.answer (Assembly.declareAll s thing package) {} := by
  unfold ofThing Resolution.answer EStateM.run
  cases Assembly.declareAll s thing package {} <;> rfl

end ThingTypes
