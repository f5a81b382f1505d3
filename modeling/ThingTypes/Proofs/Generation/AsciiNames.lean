import ThingTypes.Proofs.Generation.FeatureFields
import ThingTypes.Proofs.Generation.Inlining
import ThingTypes.Proofs.Generation.TypeNames
import ThingTypes.Proofs.Reference.Texts
import ThingTypes.Proofs.ThingModel.Reading

/-
  How types are called where all documents are of ASCII. Then so are all locations that are loaded
  from the first one on, all documents after inlining and all models that are merged, and at last
  the texts that the types are named by. What is left to go wrong is a digit in front.
-/

namespace ThingTypes

/-! ## Documents -/

/-- A document that is of ASCII stays so, whatever is inlined, if its location is of ASCII too. -/
theorem ascii_rule (base : String) :
    InliningRule base (Json.AllTexts IsAscii) fun j => IsAscii base → j.AllTexts IsAscii where
  stored h _ := h
  part h hpart hbase := (h hbase).ofPart hpart
  putStep hstep h hpart hbase := (h hbase).putStep hstep (hpart hbase)
  withoutMarker h hbase := (h hbase).withoutMarker
  rebased hdocument hsite hr hhref hfragment hbase := by
    have hreference := (hdocument hbase).reference hsite
    exact (hfragment hbase).rebased (hbase.resolve ((hreference.ofText hr).1 _ hhref))

/-! ## Models -/

/-- The texts of the link, and the location that its href is relative to, are of a kind. -/
structure Link.AllTexts (P : String → Prop) (link : Link) : Prop where
  href : P link.href
  instanceName : ∀ name ∈ link.instanceName?, P name
  origin : ∀ origin ∈ link.origin?, P origin

/-- Where a link leads from a location of ASCII. -/
theorem Link.AllTexts.resolve {link : Link} (h : link.AllTexts IsAscii) {current : String}
    (hcurrent : IsAscii current) :
    IsAscii (Location.resolve (link.origin?.getD current) link.href) := by
  refine IsAscii.resolve ?_ h.href
  cases horigin : link.origin? with
  | none => exact hcurrent
  | some origin => exact h.origin origin horigin

/-- All texts of the model and of its links are of a kind. -/
structure ThingModel.MadeOf (P : String → Prop) (model : ThingModel) : Prop where
  texts : model.AllTexts P
  links : ∀ link ∈ model.links, link.AllTexts P

namespace ThingModel

variable {P : String → Prop} {model base : ThingModel} {document : Json} {location : String}

theorem StandsIn.madeOf (h : model.StandsIn document location) (hdocument : document.AllTexts P)
    (hlocation : P location) : model.MadeOf P := by
  refine ⟨⟨?_, ?_, ?_⟩, ?_⟩
  · exact fun title htitle => (hdocument.ofPart (h.title title htitle)).ofString
  · intro e he
    obtain ⟨part, hpart, hkey, hschema⟩ := h.properties e he
    have htexts := hdocument.ofPart hpart
    exact ⟨htexts.ofKey hkey, htexts.ofPart hschema⟩
  · intro e he
    obtain ⟨part, hpart, hkey, j, hj, hread⟩ := h.actions e he
    have htexts := hdocument.ofPart hpart
    refine ⟨htexts.ofKey hkey, fun schema hschema => ?_⟩
    rw [ActionAffordance.schemas, List.mem_append, Option.mem_toList, Option.mem_toList] at hschema
    exact (htexts.ofPart hj).ofPart (ActionAffordance.mem_parts_of_json hread hschema)
  · intro link hlink
    obtain ⟨horigin, part, hpart, j, hj, hhref, hname⟩ := h.links link hlink
    have htexts := (hdocument.ofPart hpart).ofPart hj
    refine ⟨(htexts.ofPart hhref).ofString,
      fun name hmem => (htexts.ofPart (hname name hmem)).ofString, fun origin hmem => ?_⟩
    obtain rfl : location = origin := Option.some.inj (horigin.symm.trans hmem)
    exact hlocation

theorem MadeOf.mergeBase (hmodel : model.MadeOf P) (hbase : base.MadeOf P) :
    (model.mergeBase base).MadeOf P := by
  refine ⟨⟨?_, ?_, ?_⟩, ?_⟩
  · intro title htitle
    rcases Option.or_eq_some_iff.mp htitle with htitle | ⟨-, htitle⟩
    · exact hmodel.texts.title title htitle
    · exact hbase.texts.title title htitle
  · exact fun e he => (OrderedMap.mem_insertAll he).elim (hbase.texts.properties e)
      (hmodel.texts.properties e)
  · exact fun e he => (OrderedMap.mem_insertAll he).elim (hbase.texts.actions e)
      (hmodel.texts.actions e)
  · intro link hlink
    rcases List.mem_append.mp hlink with hlink | hlink
    · exact hbase.links link hlink
    · exact hmodel.links link (List.mem_filter.mp hlink).1

theorem mem_links_of_extendsLink {link : Link} (h : model.extendsLink location = .ok (some link)) :
    link ∈ model.links := by
  have hmem : link ∈ model.baseLinks := by simp [baseLinks_of_extendsLink h]
  exact (List.mem_filter.mp hmem).1

end ThingModel

/-! ## Loading -/

namespace Loading

open InlineM (Maintains)

variable {m : Type → Type} [Monad m] [LawfulMonad m] {load : Loader m}
  (hload : load.Serves (Json.AllTexts IsAscii)) (o : GenerationOptions)
include hload

theorem maintains_loadSingle_ascii (location : String) :
    Maintains (DocumentCache.Keeps (Json.AllTexts IsAscii))
      (fun model => IsAscii location → model.MadeOf IsAscii) (loadSingle load o location) := by
  refine ((ascii_rule location).maintains_loadSingle hload o).mono ?_
  rintro model ⟨document, hdocument, hmodel⟩ hlocation
  exact (ThingModel.standsIn_of_document hmodel).madeOf (hdocument hlocation) hlocation

theorem maintains_loadModel_ascii (location : String) :
    Maintains (DocumentCache.Keeps (Json.AllTexts IsAscii))
      (fun model => IsAscii location → model.MadeOf IsAscii) (loadModel load o location) := by
  have hmerged : Maintains (DocumentCache.Keeps (Json.AllTexts IsAscii))
      (fun model => ∃ last, (IsAscii location → model.MadeOf IsAscii ∧ IsAscii last) ∧
        model.extendsLink last = .ok none) (loadModel load o location) := by
    refine maintains_loadModel_of_loadSingle (maintains_loadSingle_ascii hload o)
      (fun hmodel hlocation => ⟨hmodel hlocation, hlocation⟩) ?_
    intro merged current link base hmerged hlink hbase hlocation
    obtain ⟨hmerged, hcurrent⟩ := hmerged hlocation
    have hlinked := hmerged.links link (ThingModel.mem_links_of_extendsLink hlink)
    exact ⟨hmerged.mergeBase (hbase (hlinked.resolve hcurrent)), hlinked.resolve hcurrent⟩
  refine hmerged.mono fun model h hlocation => ?_
  obtain ⟨last, hmodel, -⟩ := h
  exact (hmodel hlocation).1

theorem yields_loadThing_ascii {location : String} (hlocation : IsAscii location) :
    Yields (fun result => ∀ thing, result.1 = .ok thing → ∀ text ∈ thing.texts, IsAscii text)
      ((loadThing load o location).run.run ∅) := by
  have hthing := yields_loadThing (maintains_loadModel_ascii hload o) nofun location
  refine hthing.mono fun result h thing hresult => ?_
  obtain ⟨hmodel, hfeatures⟩ := h thing hresult
  have hmodel := hmodel hlocation
  refine List.forall_mem_append.mpr
    ⟨ThingModel.allTexts_iff.mp hmodel.texts, fun text htext => ?_⟩
  obtain ⟨feature, hfeature, htext⟩ := List.mem_flatMap.mp htext
  obtain ⟨link, hlink, hfor, hloaded⟩ := exists_left_of_forall₂ hfeatures hfeature
  have hlinked := hmodel.links link (List.mem_filter.mp hlink).1
  have hfeature := hloaded (hfor.location_eq ▸ hlinked.resolve hlocation)
  rcases List.mem_append.mp htext with hname | htext
  · rw [hfor.link_eq] at hname
    exact hlinked.instanceName text (Option.mem_toList.mp hname)
  · exact ThingModel.allTexts_iff.mp hfeature.texts text htext

end Loading

/-! ## Builds -/

namespace GeneratedModel

open Identifier

variable {m : Type → Type} [Monad m] [LawfulMonad m] {load : Loader m}

/-- A build from documents of ASCII calls every type by a capital letter or a digit and then letters
and digits, and by no reserved word. So a name is a word just if it does not start with a digit. One
that does starts like a text of the Thing that is built, whose texts are all of ASCII. -/
theorem build_typeNames (hload : load.Serves (Json.AllTexts IsAscii)) (o : GenerationOptions)
    (s : ResolutionSettings) {location : String} (hlocation : IsAscii location) (package : String) :
    Yields (fun result => ∀ model, result = .ok model →
        ∃ thing, ofThing s thing package = .ok model ∧ (∀ text ∈ thing.texts, IsAscii text) ∧
          ∀ name ∈ model.typeNames,
            IsWord isCapitalOrDigit Char.isAlphanum name.toList ∧ isReserved name = false ∧
            (IsWord isWordStart isWordChar name.toList ↔ startsWithDigit name.toList = false) ∧
            (startsWithDigit name.toList = true → ∃ text ∈ thing.texts,
              text.toList.find? Unicode.isAlphanumeric = name.toList.head?))
      (build load o s location package) := by
  refine yields_build (Loading.yields_loadThing_ascii hload o hlocation)
    fun hvalid thing hthing model hmodel => ⟨thing, hmodel, hthing, fun name hname => ?_⟩
  obtain ⟨hchars, hreserved, hword, hdigit⟩ := (ofThing_named hthing hvalid hmodel name hname).spec
  refine ⟨hchars, hreserved, hword, fun hstarts => ?_⟩
  obtain ⟨c, hhead, text, htext, hfind⟩ := hdigit hstarts
  exact ⟨text, htext, hfind.trans hhead.symm⟩

end GeneratedModel

/-- A Thing whose title starts with a digit. -/
def secondLamp : List (String × Json) :=
  [("lamp.json", .object [("title", .string "2nd Lamp"),
    ("properties", .object [("on", .object [("type", .string "boolean")])])])]

def secondLampBuild : Id (Except GenerationError GeneratedModel) :=
  GeneratedModel.build (Loader.ofDocuments secondLamp) {} { digest := plainDigest } "lamp.json" "p"

/-- The class of the Thing starts with the digit, so its name is no word. -/
theorem secondLampBuild_typeNames : ∃ model, secondLampBuild = .ok model ∧
    model.typeNames = ["Attributes", "2ndLamp"] ∧
    Identifier.IsWord Identifier.isWordStart Identifier.isWordChar "Attributes".toList ∧
    ¬Identifier.IsWord Identifier.isWordStart Identifier.isWordChar "2ndLamp".toList := by
  have hrun : (match secondLampBuild with
      | .ok model => model.typeNames
      | .error _ => []) = ["Attributes", "2ndLamp"] := by
    decide +kernel
  have hload : (Loader.ofDocuments secondLamp : Loader Id).Serves (Json.AllTexts IsAscii) :=
    Loader.serves_ofDocuments (by decide +kernel)
  obtain ⟨proved, hproved⟩ := GeneratedModel.build_typeNames hload {} { digest := plainDigest }
    (by decide : IsAscii "lamp.json") "p"
  cases h : secondLampBuild with
  | error e => simp [h] at hrun
  | ok model =>
    rw [h] at hrun
    obtain ⟨thing, -, -, hnames⟩ := proved.2 model (hproved.trans h)
    obtain ⟨hattributes, hlamp⟩ : "Attributes" ∈ model.typeNames ∧ "2ndLamp" ∈ model.typeNames := by
      simp [hrun]
    refine ⟨model, rfl, hrun, ?_, fun hword => ?_⟩
    · exact (hnames _ hattributes).2.2.1.mpr (by decide)
    · exact absurd ((hnames _ hlamp).2.2.1.mp hword) (by decide)

end ThingTypes
