import ThingTypes.Proofs.Json.Text
import ThingTypes.Proofs.Reference.Passes

/-
  Dropped references. All references of a pass are looked up in the document as it stands before
  the pass, whichever is visited first. In a lenient run a reference to the document at hand
  is inlined if its pointer designates something there, and dropped if not. What it failed to
  find does not come later, as long as the way to it leads through no marker object: around
  marker objects a pass leaves the document as it is. A marker object on the way may be replaced
  in the same pass by something that has the rest of the way, and then a reference is dropped
  that designates something in the result.
-/

namespace ThingTypes

namespace Json

/-- The first marker object on a way after a replacement is the one that the replacement of the
first one before brings along. -/
theorem firstMarker?_of_replaceMarkers? {f : Json → Option Json} {j k : Json}
    (h : j.replaceMarkers? f = some k) (tokens : List String) :
    k.firstMarker? tokens =
      (j.firstMarker? tokens).bind fun found => (f found.1).bind (firstMarker? · found.2) := by
  induction tokens generalizing j k with
  | nil =>
    by_cases hj : j.isMarker
    · rw [replaceMarkers?_of_isMarker hj] at h
      rw [firstMarker?_of_isMarker hj, Option.bind_some, h, Option.bind_some]
    · rw [replaceMarkers?_of_not_isMarker hj] at h
      rw [firstMarker?, firstMarker?, if_neg hj, if_neg (not_isMarker_of_mapParts? hj h),
        Option.bind_none]
  | cons token tokens ih =>
    by_cases hj : j.isMarker
    · rw [replaceMarkers?_of_isMarker hj] at h
      rw [firstMarker?_of_isMarker hj, Option.bind_some, h, Option.bind_some]
    · rw [replaceMarkers?_of_not_isMarker hj] at h
      rw [firstMarker?, firstMarker?, if_neg hj, if_neg (not_isMarker_of_mapParts? hj h),
        step?_of_mapParts? h]
      cases hstep : j.step? token with
      | none => rfl
      | some part =>
        obtain ⟨part', hpart'⟩ := Option.isSome_iff_exists.mp
          (isSome_of_mapParts? h (mem_parts_of_step? hstep))
        rw [Option.bind_some, hpart', Option.bind_some, Option.bind_some, ih hpart']

/-- A way that leads through no marker object and finds nothing still does so after a
replacement. -/
theorem PassesNoMarker.of_replaceMarkers? {f : Json → Option Json} {j k : Json}
    {tokens : List String} (hclear : j.PassesNoMarker tokens) (hnone : j.follow? tokens = none)
    (h : j.replaceMarkers? f = some k) : k.PassesNoMarker tokens ∧ k.follow? tokens = none := by
  have hfirst : j.firstMarker? tokens = none := by
    rw [Option.eq_none_iff_forall_ne_some]
    rintro ⟨obj, below⟩ hfound
    obtain rfl : below = [] := hclear _ hfound
    rw [(firstMarker?_eq_some hfound).2] at hnone
    cases hnone
  constructor
  · intro found hfound
    rw [firstMarker?_of_replaceMarkers? h, hfirst] at hfound
    cases hfound
  · rw [hclear.follow? h, hnone, Option.bind_none]

/-- Whether the way of a pointer leads through no marker object. -/
def PointerPassesNoMarker (j : Json) (pointer : String) : Prop :=
  ∀ tokens ∈ Pointer.tokens? pointer, j.PassesNoMarker tokens

instance (j : Json) (pointer : String) : Decidable (j.PointerPassesNoMarker pointer) :=
  inferInstanceAs (Decidable (∀ tokens ∈ Pointer.tokens? pointer, j.PassesNoMarker tokens))

end Json

/-! ## Passes -/

namespace Reference

variable {documents : List (String × Json)} {location : String} {current changed result : Json}

/-- What a pass leaves at a site: the fragment that the reference designated before the pass, or the
object without its marker. -/
theorem exists_obj_of_pass (hcurrent : current.hasDistinctKeys)
    (hpass : current.replaceMarkers? (replacement? documents false location current) =
      some changed) {site : ReferenceSite} (hsite : site ∈ current.referenceSites)
    {fragment? : Option Json}
    (hfetched : fetchedText? documents location current site.reference = some fragment?) :
    ∃ tokens obj, Pointer.tokens? site.parentPath = some tokens ∧
      current.IsOutermost tokens obj ∧
      replacement? documents false location current obj =
        some (fragment?.getD obj.withoutMarker) ∧
      changed.follow? tokens = some (fragment?.getD obj.withoutMarker) := by
  obtain ⟨tokens, obj, value, htokens, hobj, hvalue, htext⟩ :=
    Json.exists_isOutermost_of_mem_referenceSites hcurrent hsite
  have hreplaced : replacement? documents false location current obj =
      some (fragment?.getD obj.withoutMarker) := by
    rw [replacement?, replaced?, hvalue, Option.bind_some, ← htext, hfetched, Option.bind_some]
    cases fragment? <;> rfl
  refine ⟨tokens, obj, htokens, hobj, hreplaced, ?_⟩
  rw [Json.follow?_of_replaceMarkers? hpass, Json.firstMarker?_eq_some_nil_iff.mpr hobj]
  dsimp only
  rw [hreplaced]
  rfl

/-- What a pass leaves at the site of a reference to the document at hand: what the pointer
designated before the pass, or the object without its marker. -/
theorem pointer?_parentPath_of_pass (hcurrent : current.hasDistinctKeys)
    (hpass : current.replaceMarkers? (replacement? documents false location current) =
      some changed) {site : ReferenceSite} (hsite : site ∈ current.referenceSites)
    {pointer : String} (hlocal : ModelReference.ofText site.reference = .ok ⟨none, pointer⟩) :
    ∃ obj, current.pointer? site.parentPath = some obj ∧ obj.isMarker ∧
      changed.pointer? site.parentPath =
        some ((current.pointer? pointer).getD obj.withoutMarker) := by
  have hfetched : fetchedText? documents location current site.reference =
      some (current.pointer? pointer) := by
    rw [fetchedText?, hlocal]
    rfl
  obtain ⟨tokens, obj, htokens, hobj, -, hafter⟩ :=
    exists_obj_of_pass hcurrent hpass hsite hfetched
  refine ⟨obj, ?_, hobj.isMarker, ?_⟩
  · rw [Json.pointer?, htokens]
    exact hobj.follow
  · rw [Json.pointer?, htokens]
    exact hafter

/-- Where a pointer finds nothing and leads through no marker object, it finds nothing in any later
document of the run. -/
theorem LenientPasses.pointer?_eq_none (hdocuments : ∀ e ∈ documents, e.2.hasDistinctKeys)
    {passes : List (Json × Json)} (hpasses : LenientPasses documents location current passes result)
    (hcurrent : current.hasDistinctKeys) {pointer : String}
    (hclear : current.PointerPassesNoMarker pointer) (hnone : current.pointer? pointer = none) :
    result.pointer? pointer = none := by
  unfold Json.pointer? at hnone ⊢
  cases htokens : Pointer.tokens? pointer with
  | none => rfl
  | some tokens =>
    replace hclear := hclear tokens htokens
    rw [htokens, Option.bind_some] at hnone
    rw [Option.bind_some]
    clear htokens
    induction hpasses with
    | done => exact hnone
    | pass hcache hpass _ ih =>
      have hanswer := (answers_pass documents false location hcurrent _ hcache).1
      rw [hpass] at hanswer
      have hreplaced := hanswer.symm
      obtain ⟨hclear', hnone'⟩ := hclear.of_replaceMarkers? hnone hreplaced
      exact ih (hasDistinctKeys_of_pass hdocuments hcurrent hreplaced) hnone' hclear'

/-- A pass of a run replaces the marker objects of the document before it, and the run goes on from
there. -/
theorem LenientPasses.of_mem (hdocuments : ∀ e ∈ documents, e.2.hasDistinctKeys)
    {passes : List (Json × Json)} (hpasses : LenientPasses documents location current passes result)
    (hcurrent : current.hasDistinctKeys) {step : Json × Json} (hstep : step ∈ passes) :
    step.1.hasDistinctKeys ∧
      step.1.replaceMarkers? (replacement? documents false location step.1) = some step.2 ∧
      ∃ rest, LenientPasses documents location step.1 (step :: rest) result ∧
        LenientPasses documents location step.2 rest result := by
  induction hpasses with
  | done => cases hstep
  | pass hcache hpass hrest ih =>
    have hanswer := (answers_pass documents false location hcurrent _ hcache).1
    rw [hpass] at hanswer
    rcases List.mem_cons.mp hstep with rfl | hstep
    · exact ⟨hcurrent, hanswer.symm, _, .pass hcache hpass hrest, hrest⟩
    · exact ih (hasDistinctKeys_of_pass hdocuments hcurrent hanswer.symm) hstep

end Reference

/-- A lenient run that returns is a run of passes, and each pass looks its references up in the
document before it. A reference to the document at hand whose pointer designates something there
is inlined; one that designates nothing there loses its marker, and designates nothing in the
result either, unless its way leads through a marker object. -/
theorem inlined_drops_unresolved {documents : List (String × Json)} {cache : DocumentCache}
    {settings : InliningSettings} {location : String} {document result : Json}
    (hdocuments : ∀ e ∈ documents, e.2.hasDistinctKeys) (hdocument : document.hasDistinctKeys)
    (hcache : IsCacheOf documents cache) (hlenient : settings.strict = false)
    (h : inlined documents cache settings location document = .ok result) :
    ∃ passes, Reference.LenientPasses documents location document passes result ∧
      ∀ step ∈ passes, ∀ site ∈ step.1.referenceSites, ∀ pointer,
        ModelReference.ofText site.reference = .ok ⟨none, pointer⟩ →
          ∃ obj, step.1.pointer? site.parentPath = some obj ∧ obj.isMarker ∧
            step.2.pointer? site.parentPath =
              some ((step.1.pointer? pointer).getD obj.withoutMarker) ∧
            (step.1.pointer? pointer = none → step.1.PointerPassesNoMarker pointer →
              result.pointer? pointer = none) := by
  obtain ⟨passes, hpasses⟩ :=
    Reference.exists_lenientPasses_of_inlinePasses hlenient hdocuments hdocument hcache h
  refine ⟨passes, hpasses, fun step hstep site hsite pointer hlocal => ?_⟩
  obtain ⟨hbefore, hreplaced, rest, hrest, -⟩ := hpasses.of_mem hdocuments hdocument hstep
  obtain ⟨obj, hobj, hmarker, hafter⟩ :=
    Reference.pointer?_parentPath_of_pass hbefore hreplaced hsite hlocal
  exact ⟨obj, hobj, hmarker, hafter, fun hnone hclear =>
    hrest.pointer?_eq_none hdocuments hbefore hclear hnone⟩

/-- A document with a reference that resolves and one that does not. -/
def fanDocument : Json :=
  .object [("mode", .object [("tm:ref", .string "#/modes"), ("type", .string "string")]),
    ("speed", .object [("tm:ref", .string "#/low")]), ("low", .int 1)]

/-- The document with the one inlined and the other dropped. -/
def fanInlined : Json :=
  .object [("mode", .object [("type", .string "string")]), ("speed", .int 1), ("low", .int 1)]

theorem inlined_drops_unresolved_fan : fanInlined.pointer? "/modes" = none := by
  have hresult : inlined [] ∅ {} "fan.json" fanDocument = .ok fanInlined :=
    eq_ok_of_toOption (Option.map_injective Json.compact_injective (by decide +kernel))
  obtain ⟨passes, hpasses, hreads⟩ := @inlined_drops_unresolved [] ∅ {} "fan.json" fanDocument
    fanInlined (by simp) (by decide) (isCacheOf_empty _) rfl hresult
  have hsite : ⟨"/mode", "#/modes"⟩ ∈ fanDocument.referenceSites := by decide
  have hclear : fanDocument.PointerPassesNoMarker "/modes" := by decide
  generalize fanInlined = result at hpasses hreads ⊢
  cases hpasses with
  | done hnil =>
    rw [hnil] at hsite
    cases hsite
  | pass hcache hpass hrest =>
    obtain ⟨obj, -, -, -, hnone⟩ := hreads _ List.mem_cons_self _ hsite "/modes" rfl
    exact hnone rfl hclear

/-- A document with a reference whose way leads through another one. -/
def plugDocument : Json :=
  .object [("level", .object [("tm:ref", .string "#/levels/low")]),
    ("levels", .object [("tm:ref", .string "#/shared")]),
    ("shared", .object [("low", .int 1)])]

/-- The document with the second reference inlined and the first one dropped. -/
def plugInlined : Json :=
  .object [("level", .object []), ("levels", .object [("low", .int 1)]),
    ("shared", .object [("low", .int 1)])]

/-- A reference may be dropped and still designate something in the result. -/
theorem dropped_reference_designates :
    inlined [] ∅ {} "plug.json" plugDocument = .ok plugInlined ∧
      ∃ passes, Reference.LenientPasses [] "plug.json" plugDocument passes plugInlined ∧
        ∃ step ∈ passes, ∃ site ∈ step.1.referenceSites,
          ModelReference.ofText site.reference = .ok ⟨none, "/levels/low"⟩ ∧
            step.1.pointer? "/levels/low" = none ∧
            step.2.pointer? site.parentPath = some (.object []) ∧
            plugInlined.pointer? "/levels/low" = some (.int 1) := by
  have hresult : inlined [] ∅ {} "plug.json" plugDocument = .ok plugInlined :=
    eq_ok_of_toOption (Option.map_injective Json.compact_injective (by decide +kernel))
  have hpass : ((Reference.pass (m := Id) (Loader.ofDocuments []) false "plug.json"
      plugDocument).run.run ∅).1 = .ok plugInlined :=
    eq_ok_of_toOption (Option.map_injective Json.compact_injective (by decide +kernel))
  refine ⟨hresult, _, .pass (isCacheOf_empty _) hpass (.done (by decide)), _, List.mem_cons_self,
    ⟨"/level", "#/levels/low"⟩, by decide, rfl, rfl, rfl, rfl⟩

end ThingTypes
