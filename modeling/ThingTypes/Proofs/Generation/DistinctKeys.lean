import ThingTypes.Proofs.Generation.Inlining
import ThingTypes.Proofs.Reference.Moved
import ThingTypes.Proofs.Schema.Reading
import ThingTypes.Proofs.ThingModel.Reading

/-
  Documents in which no object has two members of one key. Wherever documents come from, if none has
  such objects, then nothing that is put together from them has: neither a document with its
  references inlined, nor a model that is merged with its bases.
-/

namespace ThingTypes

theorem Json.hasDistinctKeys_putStep {j part : Json} (hj : j.hasDistinctKeys)
    (hpart : part.hasDistinctKeys) (token : String) : (putStep token part j).hasDistinctKeys := by
  cases j with
  | object members =>
    obtain ⟨hkeys, hparts⟩ := hasDistinctKeys_iff.mp hj
    refine hasDistinctKeys_iff.mpr ⟨Entries.nodup_keys_insert _ _ hkeys, fun part' hmem => ?_⟩
    obtain ⟨e, he, rfl⟩ := List.mem_map.mp hmem
    rcases Entries.mem_of_mem_insert he with rfl | he
    · exact hpart
    · exact hparts e.2 (List.mem_map_of_mem he)
  | array items =>
    obtain ⟨hkeys, hparts⟩ := hasDistinctKeys_iff.mp hj
    rw [putStep]
    split
    · refine hasDistinctKeys_iff.mpr ⟨hkeys, fun part' hmem => ?_⟩
      rcases List.mem_or_eq_of_mem_set hmem with hmem | rfl
      · exact hparts part' hmem
      · exact hpart
    · exact hj
  | _ => exact hj

theorem distinctKeys_rule (base : String) :
    InliningRule base (·.hasDistinctKeys = true) (·.hasDistinctKeys = true) where
  stored := id
  part hj := (Json.hasDistinctKeys_iff.mp hj).2 _
  putStep _ hj hpart := Json.hasDistinctKeys_putStep hj hpart _
  withoutMarker := Json.hasDistinctKeys_withoutMarker
  rebased _ _ _ _ := Json.hasDistinctKeys_rebased

/-- No document that is loaded repeats a key. -/
def Loader.HasDistinctKeys {m : Type → Type} [Monad m] (load : Loader m) : Prop :=
  ∀ location, Yields (fun result => ∀ document, result = .ok document → document.hasDistinctKeys)
    (load location)

variable {m : Type → Type} [Monad m] [LawfulMonad m]

theorem Loader.hasDistinctKeys_ofDocuments {documents : List (String × Json)}
    (h : ∀ e ∈ documents, e.2.hasDistinctKeys) :
    (Loader.ofDocuments documents : Loader m).HasDistinctKeys :=
  Loader.serves_ofDocuments h

/-! ## Models -/

/-- No schema of an input or output repeats a key. -/
def ActionAffordance.HasDistinctKeys (action : ActionAffordance) : Prop :=
  ∀ schema, schema ∈ action.input? ∨ schema ∈ action.output? → schema.hasDistinctKeys

theorem ActionAffordance.hasDistinctKeys_of_json {j : Json} (hj : j.hasDistinctKeys)
    {action : ActionAffordance} (h : ofJson? j = some action) : action.HasDistinctKeys :=
  fun schema hmem => (Json.hasDistinctKeys_iff.mp hj).2 schema (mem_parts_of_json h hmem)

namespace ThingModel

/-- No schema of the model repeats a key. -/
structure HasDistinctKeys (model : ThingModel) : Prop where
  properties : ∀ e ∈ model.properties.entries, e.2.hasDistinctKeys
  actions : ∀ e ∈ model.actions.entries, e.2.HasDistinctKeys

theorem hasDistinctKeys_of_document {document : Json} (hdocument : document.hasDistinctKeys)
    {location : String} {model : ThingModel} (h : ofDocument document location = .ok model) :
    model.HasDistinctKeys := by
  have hstands := standsIn_of_document h
  have hinner {part j : Json} (hpart : part ∈ document.parts) (hj : j ∈ part.parts) :
      j.hasDistinctKeys :=
    (Json.hasDistinctKeys_iff.mp ((Json.hasDistinctKeys_iff.mp hdocument).2 part hpart)).2 j hj
  constructor
  · intro e he
    obtain ⟨part, hpart, -, hschema⟩ := hstands.properties e he
    exact hinner hpart hschema
  · intro e he
    obtain ⟨part, hpart, -, j, hj, hread⟩ := hstands.actions e he
    exact ActionAffordance.hasDistinctKeys_of_json (hinner hpart hj) hread

theorem HasDistinctKeys.mergeBase {model base : ThingModel} (hmodel : model.HasDistinctKeys)
    (hbase : base.HasDistinctKeys) : (model.mergeBase base).HasDistinctKeys where
  properties e he := (OrderedMap.mem_insertAll he).elim (hbase.properties e) (hmodel.properties e)
  actions e he := (OrderedMap.mem_insertAll he).elim (hbase.actions e) (hmodel.actions e)

end ThingModel

/-! ## Loading -/

structure LoadedThing.HasDistinctKeys (thing : LoadedThing) : Prop where
  model : thing.model.HasDistinctKeys
  features : ∀ feature ∈ thing.features, feature.model.HasDistinctKeys

namespace Loading

open InlineM (Maintains)

variable {load : Loader m} (hload : load.HasDistinctKeys) (o : GenerationOptions)
include hload

theorem maintains_loadSingle_hasDistinctKeys (location : String) :
    Maintains (DocumentCache.Keeps (·.hasDistinctKeys = true)) ThingModel.HasDistinctKeys
      (loadSingle load o location) := by
  refine ((distinctKeys_rule location).maintains_loadSingle hload o).mono ?_
  rintro model ⟨document, hdocument, hmodel⟩
  exact ThingModel.hasDistinctKeys_of_document hdocument hmodel

theorem maintains_loadModel_hasDistinctKeys (location : String) :
    Maintains (DocumentCache.Keeps (·.hasDistinctKeys = true)) ThingModel.HasDistinctKeys
      (loadModel load o location) := by
  have hmerged : Maintains (DocumentCache.Keeps (·.hasDistinctKeys = true))
      (fun model => ∃ last : String, model.HasDistinctKeys ∧ model.extendsLink last = .ok none)
      (loadModel load o location) :=
    maintains_loadModel_of_loadSingle (maintains_loadSingle_hasDistinctKeys hload o) id
      fun hmerged _ hbase => hmerged.mergeBase hbase
  refine hmerged.mono fun model h => ?_
  obtain ⟨-, hmodel, -⟩ := h
  exact hmodel

/-- Things that are loaded from such documents repeat no key. -/
theorem yields_loadThing_hasDistinctKeys (location : String) :
    Yields (fun result => ∀ thing, result.1 = .ok thing → thing.HasDistinctKeys)
      ((loadThing load o location).run.run ∅) := by
  have hthing := yields_loadThing
    (fun location => maintains_loadModel_hasDistinctKeys hload o location) nofun location
  refine hthing.mono fun result h thing hresult => ?_
  obtain ⟨hmodel, hfeatures⟩ := h thing hresult
  refine ⟨hmodel, fun feature hmem => ?_⟩
  obtain ⟨link, -, -, hfeature⟩ := exists_left_of_forall₂ hfeatures hmem
  exact hfeature

end Loading

end ThingTypes
