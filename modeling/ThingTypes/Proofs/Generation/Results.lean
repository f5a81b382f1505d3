import Mathlib.Data.List.Basic
import Mathlib.Tactic.Choose
import ThingTypes.Generation.Assembly

/-
  What is known of the results of a build. Documents are loaded in a monad of which nothing is known
  but its laws, so it is not said there which results a computation has. A computation yields
  results with a property if it is, up to forgetting the proofs, a computation of results together
  with proofs.
-/

namespace ThingTypes

variable {m : Type → Type} [Monad m] {α β : Type} {P Q : α → Prop} {x : m α}

/-- All results of the computation have the property. -/
def Yields (P : α → Prop) (x : m α) : Prop :=
  ∃ proved : m {a // P a}, Subtype.val <$> proved = x

theorem Yields.of_id {x : Id α} (h : P x.run) : Yields P x :=
  ⟨(⟨x, h⟩ : {a // P a}), rfl⟩

namespace Yields

variable [LawfulMonad m]

theorem pure {a : α} (h : P a) : Yields P (Pure.pure a : m α) :=
  ⟨Pure.pure ⟨a, h⟩, map_pure _ _⟩

theorem bind {R : β → Prop} {f : α → m β} (hx : Yields P x) (hf : ∀ a, P a → Yields R (f a)) :
    Yields R (x >>= f) := by
  obtain ⟨proved, rfl⟩ := hx
  choose next hnext using fun a : {a // P a} => hf a.1 a.2
  refine ⟨proved >>= next, ?_⟩
  rw [map_bind, bind_map_left]
  exact bind_congr hnext

theorem mono (hx : Yields P x) (h : ∀ a, P a → Q a) : Yields Q x := by
  obtain ⟨proved, rfl⟩ := hx
  exact ⟨(fun a => ⟨a.1, h a.1 a.2⟩) <$> proved, by simp [Functor.map_map]⟩

/-- Every computation yields results. -/
theorem trivial (x : m α) : Yields (fun _ => True) x :=
  ⟨(⟨·, True.intro⟩) <$> x, by simp [Functor.map_map]⟩

end Yields

/-! ## Loading -/

/-- Where the documents that are kept have the invariant, they have it afterwards, and results have
the property. -/
def InlineM.Maintains (I : DocumentCache → Prop) (P : α → Prop) (act : InlineM m α) : Prop :=
  ∀ cache, I cache →
    Yields (fun result => (∀ a, result.1 = .ok a → P a) ∧ I result.2) (act.run.run cache)

namespace InlineM.Maintains

variable [LawfulMonad m] {I : DocumentCache → Prop} {P : α → Prop} {Q : β → Prop}
  {act : InlineM m α} {f : α → InlineM m β}

theorem pure {a : α} (h : P a) : Maintains I P (Pure.pure a : InlineM m α) := by
  intro cache hcache
  refine .pure (a := ((.ok a : Except GenerationError α), cache)) ⟨?_, hcache⟩
  rintro _ ⟨⟩
  exact h

theorem throw (e : GenerationError) : Maintains I P (throw e : InlineM m α) := fun cache hcache =>
  .pure (a := ((.error e : Except GenerationError α), cache)) ⟨nofun, hcache⟩

theorem liftExcept {r : Except GenerationError α} (h : ∀ a, r = .ok a → P a) :
    Maintains I P (liftExcept r : InlineM m α) := by
  cases r with
  | ok a => exact pure (h a rfl)
  | error e => exact throw e

theorem bind (h : Maintains I P act) (hf : ∀ a, P a → Maintains I Q (f a)) :
    Maintains I Q (act >>= f) := by
  intro cache hcache
  rw [ExceptT.run_bind, StateT.run_bind]
  refine (h cache hcache).bind ?_
  rintro ⟨e | a, cache'⟩ ⟨ha, hcache'⟩
  · exact .pure ⟨nofun, hcache'⟩
  · exact hf a (ha a rfl) cache' hcache'

theorem mono {P' : α → Prop} (h : Maintains I P act) (hP : ∀ a, P a → P' a) : Maintains I P' act :=
  fun cache hcache => (h cache hcache).mono fun _ hresult =>
    ⟨fun a ha => hP a (hresult.1 a ha), hresult.2⟩

theorem lift {x : m α} (h : Yields P x) : Maintains I P (liftM x : InlineM m α) := by
  intro cache hcache
  have hrun : (liftM x : InlineM m α).run.run cache = (fun a => (.ok a, cache)) <$> x := by
    change (Except.ok <$> StateT.lift x : StateT DocumentCache m _).run cache = _
    rw [StateT.run_map, StateT.run_lift]
    simp
  rw [hrun, map_eq_pure_bind]
  refine h.bind fun a ha => .pure ⟨?_, hcache⟩
  rintro _ ⟨⟩
  exact ha

theorem get : Maintains I I (get : InlineM m DocumentCache) := by
  intro cache hcache
  change Yields _ ((Except.ok <$> (MonadState.get : StateT DocumentCache m _)).run cache)
  rw [StateT.run_map, StateT.run_get, map_pure]
  refine .pure ⟨?_, hcache⟩
  rintro _ ⟨⟩
  exact hcache

theorem of_modify {g : DocumentCache → DocumentCache} (h : ∀ cache, I cache → I (g cache)) :
    Maintains I (fun _ => True) (modify g : InlineM m PUnit) := by
  intro cache hcache
  change Yields _ ((Except.ok <$> (modify g : StateT DocumentCache m _)).run cache)
  rw [StateT.run_map, StateT.run_modify, map_pure]
  exact .pure ⟨fun _ _ => True.intro, h cache hcache⟩

end InlineM.Maintains

/-- A feature that is loaded for a link in the model at a location. -/
structure LoadedFeature.IsFor (location : String) (link : Link) (feature : LoadedFeature) :
    Prop where
  link_eq : feature.link = link
  location_eq : feature.location = Location.resolve (link.origin?.getD location) link.href

namespace Loading

open InlineM (Maintains)

variable [LawfulMonad m] {load : Loader m} {o : GenerationOptions} {Kept : DocumentCache → Prop}

/-- What holds of the model that is merged so far, and of the location of its last base, holds when
there is no base left, if each base keeps it. -/
theorem maintains_mergeBases {Read : String → ThingModel → Prop}
    (hread : ∀ location, Maintains Kept (Read location) (loadSingle load o location))
    {Merged : ThingModel → String → Prop}
    (hstep : ∀ {merged current link base}, Merged merged current →
      merged.extendsLink current = .ok (some link) →
      Read (Location.resolve (link.origin?.getD current) link.href) base →
      Merged (merged.mergeBase base) (Location.resolve (link.origin?.getD current) link.href))
    (start : String) (remaining : Nat) :
    ∀ {merged current}, Merged merged current →
      Maintains Kept (fun model => ∃ last, Merged model last ∧ model.extendsLink last = .ok none)
        (mergeBases load o start remaining merged current) := by
  induction remaining with
  | zero =>
    intro merged current h
    unfold mergeBases
    apply (Maintains.liftExcept fun _ => id).bind
    intro link? hlink
    cases link? with
    | none => exact .pure ⟨current, h, hlink⟩
    | some link => exact .throw _
  | succ remaining ih =>
    intro merged current h
    unfold mergeBases
    apply (Maintains.liftExcept fun _ => id).bind
    intro link? hlink
    cases link? with
    | none => exact .pure ⟨current, h, hlink⟩
    | some link =>
      apply (hread _).bind
      intro base hbase
      exact ih (hstep h hlink hbase)

/-- The same from the model of a location on, which is the first to be merged. -/
theorem maintains_loadModel_of_loadSingle {Read : String → ThingModel → Prop}
    (hread : ∀ location, Maintains Kept (Read location) (loadSingle load o location))
    {Merged : ThingModel → String → Prop} {location : String}
    (hfirst : ∀ {model}, Read location model → Merged model location)
    (hstep : ∀ {merged current link base}, Merged merged current →
      merged.extendsLink current = .ok (some link) →
      Read (Location.resolve (link.origin?.getD current) link.href) base →
      Merged (merged.mergeBase base) (Location.resolve (link.origin?.getD current) link.href)) :
    Maintains Kept (fun model => ∃ last, Merged model last ∧ model.extendsLink last = .ok none)
      (loadModel load o location) := by
  unfold loadModel
  apply (hread location).bind
  intro model hmodel
  exact maintains_mergeBases hread hstep location _ (hfirst hmodel)

variable {Loaded : String → ThingModel → Prop}
  (hmodel : ∀ location, Maintains Kept (Loaded location) (loadModel load o location))
include hmodel

theorem maintains_loadFeatures (location : String) (links : List Link) :
    Maintains Kept
      (List.Forall₂ (fun link feature =>
        feature.IsFor location link ∧ Loaded feature.location feature.model) links)
      (loadFeatures load o location links) := by
  induction links with
  | nil => exact .pure .nil
  | cons link links ih =>
    apply (hmodel _).bind
    intro model hloaded
    apply ih.bind
    intro features hfeatures
    exact .pure (.cons ⟨⟨rfl, rfl⟩, hloaded⟩ hfeatures)

/-- A Thing is loaded with a feature for each link to one. -/
theorem yields_loadThing (hempty : Kept ∅) (location : String) :
    Yields (fun result => ∀ thing, result.1 = .ok thing → Loaded location thing.model ∧
        List.Forall₂ (fun link feature =>
          feature.IsFor location link ∧ Loaded feature.location feature.model)
        thing.model.submodels thing.features)
      ((loadThing load o location).run.run ∅) := by
  have hthing : Maintains Kept (fun thing : LoadedThing => Loaded location thing.model ∧
      List.Forall₂ (fun link feature =>
        feature.IsFor location link ∧ Loaded feature.location feature.model)
      thing.model.submodels thing.features) (loadThing load o location) := by
    apply (hmodel location).bind
    intro model hloaded
    apply (maintains_loadFeatures hmodel location _).bind
    intro features hfeatures
    exact .pure ⟨hloaded, hfeatures⟩
  exact (hthing ∅ hempty).mono fun _ h => h.1

end Loading

/-! ## Builds -/

/-- A build yields models with a property, if all Things that are loaded have models with the
property. -/
theorem GeneratedModel.yields_build [LawfulMonad m] {load : Loader m} {o : GenerationOptions}
    {s : ResolutionSettings} {location package : String} {loaded : LoadedThing → Prop}
    {P : GeneratedModel → Prop}
    (hload : Yields (fun result => ∀ thing, result.1 = .ok thing → loaded thing)
      ((Loading.loadThing load o location).run.run ∅))
    (h : Package.isValid package → ∀ thing, loaded thing → ∀ model,
      GeneratedModel.ofThing s thing package = .ok model → P model) :
    Yields (fun result => ∀ model, result = .ok model → P model)
      (GeneratedModel.build load o s location package) := by
  unfold build Package.check
  split
  · exact .pure nofun
  · rename_i hcheck
    have hvalid : Package.isValid package := by
      by_contra hinvalid
      simp [hinvalid] at hcheck
    refine hload.bind ?_
    rintro ⟨e | thing, cache⟩ hthing
    · exact .pure nofun
    · exact .pure (h hvalid thing (hthing thing rfl))

/-- The same for properties that every Thing has. -/
theorem GeneratedModel.yields_build_of_ofThing [LawfulMonad m] {load : Loader m}
    {o : GenerationOptions} {s : ResolutionSettings} {location package : String}
    {P : GeneratedModel → Prop}
    (h : Package.isValid package → ∀ thing model,
      GeneratedModel.ofThing s thing package = .ok model → P model) :
    Yields (fun result => ∀ model, result = .ok model → P model)
      (GeneratedModel.build load o s location package) := by
  have hload : Yields (fun result => ∀ thing, result.1 = .ok thing → True)
      ((Loading.loadThing load o location).run.run ∅) :=
    (Yields.trivial _).mono fun _ _ _ _ => trivial
  exact yields_build hload fun hvalid thing _ => h hvalid thing

end ThingTypes
