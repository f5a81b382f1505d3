import ThingTypes.Proofs.Generation.Locality

/-
  Features compose package by package. A feature is declared in the packages below its own segment,
  so features with other segments do not notice it: a Thing can be built with all of its features
  exactly when, for each segment, it can be built with those that have it.

  Features whose names give one segment share their packages, whatever their classes are called. Two
  of them with actions of their own cannot be declared together.
-/

namespace ThingTypes

namespace Assembly

open Resolution

variable {s : ResolutionSettings} {package : String}

/-! ## Runs -/

/-- The run ends with a result. -/
def Succeeds {α : Type} (x : ResolveM α) (st : ResolutionState) : Prop :=
  ∃ a, answer x st = .ok a

theorem succeeds_bind_iff {α β : Type} {x : ResolveM α} {f : α → ResolveM β}
    {st : ResolutionState} :
    Succeeds (x >>= f) st ↔ ∃ a, answer x st = .ok a ∧ Succeeds (f a) (leaves x st) := by
  simp only [Succeeds, answer_bind]
  cases answer x st with
  | error e => simp [Except.bind]
  | ok a => simp [Except.bind]

theorem succeeds_declareFeatures_cons {feature : LoadedFeature} {rest : List LoadedFeature}
    {st : ResolutionState} :
    Succeeds (declareFeatures s package (feature :: rest)) st ↔
      Succeeds (declareFeature s package feature) st ∧
        Succeeds (declareFeatures s package rest)
          (leaves (declareFeature s package feature) st) := by
  rw [declareFeatures, succeeds_bind_iff]
  simp only [succeeds_bind_iff]
  constructor
  · rintro ⟨declared, hdeclared, others, hothers, -⟩
    exact ⟨⟨declared, hdeclared⟩, others, hothers⟩
  · rintro ⟨⟨declared, hdeclared⟩, others, hothers⟩
    exact ⟨declared, hdeclared, others, hothers, _, rfl⟩

/-- The features of some segments and the others go as they do on their own. -/
theorem succeeds_declareFeatures_iff (wanted : Option String → Bool)
    (features : List LoadedFeature) :
    ∀ {st a b : ResolutionState},
      st.within (segmentPackages wanted package) = a.within (segmentPackages wanted package) →
      st.within (!segmentPackages wanted package ·) =
        b.within (!segmentPackages wanted package ·) →
      (Succeeds (declareFeatures s package features) st ↔
        Succeeds (declareFeatures s package
          (features.filter fun feature => wanted (featureSegment? feature))) a ∧
        Succeeds (declareFeatures s package
          (features.filter fun feature => !wanted (featureSegment? feature))) b) := by
  induction features with
  | nil => exact fun _ _ => ⟨fun _ => ⟨⟨[], rfl⟩, [], rfl⟩, fun _ => ⟨[], rfl⟩⟩
  | cons feature rest ih =>
    intro st a b ha hb
    rw [succeeds_declareFeatures_cons]
    cases hwanted : wanted (featureSegment? feature) with
    | true =>
      have hlocal := declareFeature_local_of_wanted s package hwanted
      obtain ⟨hanswer, hleaves⟩ := hlocal.agree ha
      simp only [List.filter_cons, hwanted, if_true, Bool.not_true, Bool.false_eq_true, if_false]
      rw [succeeds_declareFeatures_cons, ih hleaves ((hlocal.frame st).trans hb), ← and_assoc]
      simp only [Succeeds, hanswer]
    | false =>
      have hother : (!wanted (featureSegment? feature)) = true := by simp [hwanted]
      have hlocal : Local (segmentPackages (!wanted ·) package) (declareFeature s package feature)
          fun _ => True := declareFeature_local_of_wanted s package hother
      obtain ⟨hanswer, hleaves⟩ := hlocal.agree hb
      have hframe := hlocal.frame st
      simp only [segmentPackages, Bool.not_not] at hframe
      simp only [List.filter_cons, hwanted, if_true, Bool.not_false, Bool.false_eq_true, if_false]
      rw [succeeds_declareFeatures_cons, ih (hframe.trans ha) hleaves]
      simp only [Succeeds, hanswer]
      exact and_left_comm

/-- The features of a list that have the segment of one of them. -/
def alike (features : List LoadedFeature) (feature : LoadedFeature) : List LoadedFeature :=
  features.filter (featureSegment? · = featureSegment? feature)

/-- Features succeed together when those of each segment do. -/
theorem succeeds_declareFeatures_iff_alike (features : List LoadedFeature)
    (st : ResolutionState) :
    Succeeds (declareFeatures s package features) st ↔
      ∀ feature ∈ features, Succeeds (declareFeatures s package (alike features feature)) st := by
  induction hlength : features.length using Nat.strongRecOn generalizing features with
  | ind length ih =>
  cases features with
  | nil => exact ⟨nofun, fun _ => ⟨[], rfl⟩⟩
  | cons first rest =>
    -- The features with the segment of the first one, and then the others.
    let wanted (segment? : Option String) : Bool := segment? = featureSegment? first
    let others := (first :: rest).filter fun feature => !wanted (featureSegment? feature)
    have hshorter : others.length < length := by
      have hdropped : others = rest.filter fun feature => !wanted (featureSegment? feature) := by
        simp [others, wanted]
      rw [hdropped, ← hlength]
      exact Nat.lt_succ_of_le (List.length_filter_le _ _)
    have halike {feature : LoadedFeature} (h : featureSegment? feature ≠ featureSegment? first) :
        alike others feature = alike (first :: rest) feature := by
      refine filter_filter_of_imp (fun other hother => ?_) _
      rw [decide_eq_true_eq] at hother
      simp [wanted, hother, h]
    rw [succeeds_declareFeatures_iff wanted _ rfl rfl, ih _ hshorter others rfl]
    constructor
    · rintro ⟨hfirst, hothers⟩ feature hmem
      by_cases hsegment : featureSegment? feature = featureSegment? first
      · rw [alike, hsegment]
        exact hfirst
      · rw [← halike hsegment]
        exact hothers feature (List.mem_filter.mpr ⟨hmem, by simpa [wanted] using hsegment⟩)
    · intro h
      refine ⟨h first List.mem_cons_self, fun feature hmem => ?_⟩
      obtain ⟨hmem, hsegment⟩ := List.mem_filter.mp hmem
      rw [halike (by simpa [wanted] using hsegment)]
      exact h feature hmem

/-! ## Things -/

/-- The class of the Thing always gets a name. -/
theorem succeeds_declareThing (s : ResolutionSettings) (model : ThingModel) (name package : String)
    (fields : List FieldDecl) (st : ResolutionState) :
    Succeeds (declareThing s model name package fields) st := by
  unfold declareThing
  dsimp only
  rw [claimCandidate_eq]
  obtain ⟨claim, c', hclaim⟩ := exists_claimedCandidate name none none package
    (.ofMembers s.digest (fields.map fun f => (f.jsonName, f.type.signature))) st.catalog
  refine succeeds_bind_iff.mpr ⟨some claim, by rw [answer, ofCatalog, hclaim], ?_⟩
  dsimp only
  split
  · exact ⟨_, rfl⟩
  · exact ⟨_, rfl⟩

end Assembly

open Assembly Resolution

/-- The Thing can be built with these features. -/
def GeneratedModel.Builds (s : ResolutionSettings) (model : ThingModel)
    (features : List LoadedFeature) (package : String) : Prop :=
  ∃ built, GeneratedModel.ofThing s { model, features } package = .ok built

namespace GeneratedModel

variable {s : ResolutionSettings} {model : ThingModel} {features : List LoadedFeature}
  {package : String}

/-- Only the types of its own and those of its features can keep a Thing from being built. -/
theorem builds_iff : Builds s model features package ↔
    Succeeds (declareOwn s model package) {} ∧
      Succeeds (declareFeatures s package features) (leaves (declareOwn s model package) {}) := by
  simp only [Builds, ofThing_eq_answer]
  change Succeeds (declareAll s { model, features } package) {} ↔ _
  rw [declareAll_eq, succeeds_bind_iff]
  simp only [succeeds_bind_iff]
  constructor
  · rintro ⟨own, hown, features, hfeatures, -⟩
    exact ⟨⟨own, hown⟩, features, hfeatures⟩
  · rintro ⟨⟨own, hown⟩, features, hfeatures⟩
    obtain ⟨type, htype⟩ := succeeds_declareThing s model (thingName model) package
      (thingFields own.1 features)
      (leaves (declareFeatures s package _) (leaves (declareOwn s model package) {}))
    exact ⟨own, hown, features, hfeatures, type, htype, _, rfl, _, rfl⟩

instance : Decidable (Builds s model features package) :=
  decidable_of_iff ((ofThing s { model, features } package).isOk = true) <| by
    unfold Builds
    cases ofThing s { model, features } package <;> simp [Except.isOk, Except.toBool]

/-- A Thing can be built with all of its features exactly when, for each segment, it can be built
with those that have it. -/
theorem builds_iff_alike (hfeatures : features ≠ []) :
    Builds s model features package ↔
      ∀ feature ∈ features, Builds s model (alike features feature) package := by
  simp only [builds_iff]
  rw [succeeds_declareFeatures_iff_alike]
  constructor
  · exact fun ⟨hown, h⟩ feature hmem => ⟨hown, h feature hmem⟩
  · intro h
    obtain ⟨first, hfirst⟩ := List.exists_mem_of_ne_nil features hfeatures
    exact ⟨(h first hfirst).1, fun feature hmem => (h feature hmem).2⟩

theorem alike_eq_singleton {feature : LoadedFeature} (hmem : feature ∈ features)
    (h : features.Pairwise (featureSegment? · ≠ featureSegment? ·)) :
    alike features feature = [feature] := by
  unfold alike
  induction features with
  | nil => cases hmem
  | cons first rest ih =>
    obtain ⟨hfirst, hrest⟩ := List.pairwise_cons.mp h
    rcases List.mem_cons.mp hmem with rfl | hmem
    · have hnone : rest.filter (featureSegment? · = featureSegment? feature) = [] :=
        List.filter_eq_nil_iff.mpr fun other hother => by simpa using (hfirst other hother).symm
      simp [hnone]
    · rw [List.filter_cons_of_neg (by simpa using hfirst feature hmem)]
      exact ih hmem hrest

/-- Features with different segments compose: a Thing can be built with all of them exactly when it
can be built with each of them alone. -/
theorem builds_iff_forall_single (hfeatures : features ≠ [])
    (h : features.Pairwise (featureSegment? · ≠ featureSegment? ·)) :
    Builds s model features package ↔
      ∀ feature ∈ features, Builds s model [feature] package := by
  rw [builds_iff_alike hfeatures]
  refine forall₂_congr fun feature hmem => ?_
  rw [alike_eq_singleton hmem h]

/-- A feature with one action. -/
def switchFeature (instanceName action : String) : LoadedFeature where
  link := { href := "switch.json", instanceName? := some instanceName }
  location := "switch.json"
  model := { actions := OrderedMap.insert ∅ action {} }

theorem builds_with_two_switches :
    [switchFeature "hall" "on", switchFeature "attic" "off"].Pairwise
        (featureSegment? · ≠ featureSegment? ·) ∧
      Builds {} {} [switchFeature "hall" "on", switchFeature "attic" "off"] "p" := by
  have hsegments : [switchFeature "hall" "on", switchFeature "attic" "off"].Pairwise
      (featureSegment? · ≠ featureSegment? ·) := by decide +kernel
  exact ⟨hsegments, (builds_iff_forall_single (by simp) hsegments).mpr (by decide +kernel)⟩

/-- Classes of different names do not keep features apart: both of these have the segment `foobar`,
where the second enum of actions is refused. Nor do features that are missing make up for a property
that cannot be read. -/
theorem lookalike_features_clash :
    [switchFeature "FooBar" "on", switchFeature "Foobar" "off"].Pairwise (fun f g =>
        (featureName f).toOption.map Identifier.className ≠
          (featureName g).toOption.map Identifier.className) ∧
      (∀ feature ∈ [switchFeature "FooBar" "on", switchFeature "Foobar" "off"],
        Builds {} {} [feature] "p") ∧
      ¬Builds {} {} [switchFeature "FooBar" "on", switchFeature "Foobar" "off"] "p" ∧
      ¬Builds {} { properties := OrderedMap.insert ∅ "level" .null } [] "p" := by
  decide +kernel

end GeneratedModel

end ThingTypes
