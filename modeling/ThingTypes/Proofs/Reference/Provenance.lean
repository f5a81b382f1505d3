import ThingTypes.Proofs.Json.Text
import ThingTypes.Proofs.Reference.Passes

/-
  Where marker objects come from. In a lenient run a marker that resolves to nothing is dropped,
  and what lies below it surfaces. Each place in the document is followed back through the passes
  to a place in the original document or in a fragment that was taken from another one. A marker
  object there still names what it names in the document the fragment is from, if it was rewritten
  on the way, that is, if it lies below no other marker object of the fragment; and if it does
  not refer to the directory of the inlined document.
-/

namespace ThingTypes

namespace Reference

variable {documents : List (String × Json)} {location : String} {document : Json}

/-- A place in the original document, or in the fragment that a pointer designates in the document
at a location. -/
inductive Origin where
  | original (path : List String)
  | fragment (location pointer : String) (path : List String)

/-- The origins of places after a pass. At the first marker object on its way a path enters a
fragment; where the marker is dropped it goes on as before. -/
def originAfter (documents : List (String × Json)) (location : String) (current : Json)
    (origin : List String → Origin) (path : List String) : Origin :=
  match current.firstMarker? path with
  | none => origin path
  | some (obj, below) =>
    match obj.reference? with
    | none => origin path
    | some r =>
      match fetched? documents location current r, r.document? with
      | some (some _), some _ => .fragment (r.target location) r.pointer below
      | some (some _), none => origin ((Pointer.tokens? r.pointer).getD [] ++ below)
      | _, _ => origin path

/-- The documents that passes of a lenient run arrive at, with the origins of their places. -/
inductive LenientRun (documents : List (String × Json)) (location : String) (document : Json) :
    Json → (List String → Origin) → Prop where
  | start : LenientRun documents location document document .original
  | pass {current changed : Json} {origin : List String → Origin} {cache : DocumentCache} :
      LenientRun documents location document current origin →
      IsCacheOf documents cache →
      ((pass (m := Id) (Loader.ofDocuments documents) false location current).run.run cache).1 =
        .ok changed →
      LenientRun documents location document changed
        (originAfter documents location current origin)

/-- The passes of a run lead from a document of the run to others. -/
theorem LenientPasses.exists_lenientRun {current result : Json} {passes : List (Json × Json)}
    (hpasses : LenientPasses documents location current passes result)
    {origin : List String → Origin} (hrun : LenientRun documents location document current origin) :
    (∀ step ∈ passes, ∃ origin, LenientRun documents location document step.1 origin) ∧
      ∃ origin, LenientRun documents location document result origin := by
  induction hpasses generalizing origin with
  | done => exact ⟨nofun, origin, hrun⟩
  | pass hcache hpass _ ih =>
    obtain ⟨hsteps, hresult⟩ := ih (hrun.pass hcache hpass)
    exact ⟨List.forall_mem_cons.mpr ⟨⟨origin, hrun⟩, hsteps⟩, hresult⟩

/-- What inlining returns has come about in passes, each from a document of a lenient run, and is
such a document itself. -/
theorem exists_lenientRun_of_inlined (hdocuments : ∀ e ∈ documents, e.2.hasDistinctKeys)
    (hdocument : document.hasDistinctKeys) {settings : InliningSettings}
    (hlenient : settings.strict = false) {cache : DocumentCache}
    (hcache : IsCacheOf documents cache) {result : Json}
    (h : inlined documents cache settings location document = .ok result) :
    ∃ passes, LenientPasses documents location document passes result ∧
      (∀ step ∈ passes, ∃ origin, LenientRun documents location document step.1 origin) ∧
      ∃ origin, LenientRun documents location document result origin := by
  obtain ⟨passes, hpasses⟩ :=
    exists_lenientPasses_of_inlinePasses hlenient hdocuments hdocument hcache h
  exact ⟨passes, hpasses, hpasses.exists_lenientRun .start⟩

/-- The marker object stands at its origin, up to what moving does to fragments. -/
def Origin.Holds (documents : List (String × Json)) (location : String) (document obj : Json) :
    Origin → Prop
  | original path => document.follow? path = some obj
  | fragment origin pointer path =>
    ∃ source part, Entries.get? origin documents = some source ∧
      source.pointer? pointer = some part ∧ Location.Reached location origin ∧
      (moved origin location part).follow? path = some obj

/-- Every marker object stands at its origin. -/
def Traced (documents : List (String × Json)) (location : String) (document current : Json)
    (origin : List String → Origin) : Prop :=
  ∀ path obj, current.follow? path = some obj → obj.isMarker →
    (origin path).Holds documents location document obj

theorem traced_start : Traced documents location document document .original :=
  fun _ _ h _ => h

/-- Below a dropped marker, places stay where they are. -/
theorem follow?_of_withoutMarker {obj part : Json} {path : List String} (hobj : obj.hasDistinctKeys)
    (hmarker : obj.isMarker) (h : obj.withoutMarker.follow? path = some part)
    (hpart : part.isMarker) : obj.follow? path = some part := by
  cases path with
  | nil =>
    cases h
    exact absurd hpart (Json.not_isMarker_withoutMarker hobj)
  | cons token path =>
    rw [Json.follow?, Json.step?_withoutMarker hobj hmarker] at h
    split_ifs at h with htoken
    · cases h
    · exact h

/-- A pass keeps places traced. -/
theorem Traced.pass {current changed : Json} {origin : List String → Origin}
    (hdocuments : ∀ e ∈ documents, Location.IsFile e.1) (hlocation : Location.IsFile location)
    (hcurrent : current.hasDistinctKeys)
    (htraced : Traced documents location document current origin)
    (hpass : current.replaceMarkers? (replacement? documents false location current) =
      some changed) :
    Traced documents location document changed
      (originAfter documents location current origin) := by
  intro path obj hobj hmarker
  rw [Json.follow?_of_replaceMarkers? hpass] at hobj
  unfold originAfter
  cases hfirst : current.firstMarker? path with
  | none =>
    -- what stands here has been one marker object before, so there would be one on the way
    simp only [hfirst] at hobj
    obtain ⟨part, hpart, hobj⟩ := Option.bind_eq_some_iff.mp hobj
    obtain ⟨hnot, -⟩ := Json.markers_of_firstMarker?_eq_none hfirst hpart
    rw [Json.replaceMarkers?_of_not_isMarker hnot] at hobj
    exact absurd hmarker (Json.not_isMarker_of_mapParts? hnot hobj)
  | some found =>
    obtain ⟨outer, below⟩ := found
    obtain ⟨houter, hfollow⟩ := Json.firstMarker?_eq_some hfirst
    simp only [hfirst] at hobj
    obtain ⟨piece, hpiece, hobj⟩ := Option.bind_eq_some_iff.mp hobj
    rw [replacement?_eq] at hpiece
    obtain ⟨r, hr, hpiece⟩ := Option.bind_eq_some_iff.mp hpiece
    obtain ⟨fragment?, hfetched, hpiece⟩ := Option.bind_eq_some_iff.mp hpiece
    simp only [hr, hfetched]
    cases fragment? with
    | none =>
      cases hpiece
      refine htraced path obj (hfollow.trans ?_) hmarker
      exact follow?_of_withoutMarker (Json.hasDistinctKeys_of_mem_markers hcurrent houter)
        (Json.isMarker_of_mem_markers houter) hobj hmarker
    | some part =>
      cases hpiece
      obtain ⟨document?, pointer⟩ := r
      cases document? with
      | none =>
        obtain ⟨tokens, htokens, hpart⟩ := Option.bind_eq_some_iff.mp (Option.some.inj hfetched)
        simp only [htokens, Option.getD_some]
        refine htraced (tokens ++ below) obj ?_ hmarker
        rw [Json.follow?_append, hpart, Option.bind_some, hobj]
      | some target =>
        obtain ⟨source, hsource, hfetched⟩ := Option.map_eq_some_iff.mp hfetched
        obtain ⟨original, horiginal, rfl⟩ := Option.map_eq_some_iff.mp hfetched
        obtain ⟨value, hvalue⟩ := Json.exists_ofText_of_reference? hr
        have hfile := hdocuments _ (Entries.mem_of_get? hsource)
        exact ⟨source, original, hsource, horiginal,
          ModelReference.reached_of_isFile hlocation hvalue hfile, hobj⟩

theorem LenientRun.traced (hdocuments : ∀ e ∈ documents, Location.IsFile e.1)
    (hkeys : ∀ e ∈ documents, e.2.hasDistinctKeys) (hlocation : Location.IsFile location)
    (hdocument : document.hasDistinctKeys) {current : Json} {origin : List String → Origin}
    (hrun : LenientRun documents location document current origin) :
    current.hasDistinctKeys ∧ Traced documents location document current origin := by
  induction hrun with
  | start => exact ⟨hdocument, traced_start⟩
  | pass _ hcache hpass ih =>
    obtain ⟨hcurrent, htraced⟩ := ih
    have hanswer := (answers_pass documents false location hcurrent _ hcache).1
    rw [hpass] at hanswer
    exact ⟨hasDistinctKeys_of_pass hkeys hcurrent hanswer.symm,
      htraced.pass hdocuments hlocation hcurrent hanswer.symm⟩

/-- A moved fragment has its marker objects where the fragment has them. -/
theorem exists_follow?_of_moved {origin : String} {part obj : Json} {path : List String}
    (hclear : part.PassesNoMarker path) (h : (moved origin location part).follow? path = some obj)
    (hmarker : obj.isMarker) :
    ∃ original, part.follow? path = some original ∧ original.isMarker ∧
      obj = moved origin location original := by
  unfold moved at h ⊢
  split_ifs at h ⊢ with hsame
  · exact ⟨obj, h, hmarker, rfl⟩
  · rw [hclear.follow? (Json.replaceMarkers?_rebased origin location part)] at h
    obtain ⟨original, horiginal, h⟩ := Option.bind_eq_some_iff.mp h
    rw [Json.replaceMarkers?_rebased, Option.some.injEq] at h
    refine ⟨original, horiginal, ?_, h.symm⟩
    by_contra hnot
    have hrebased := Json.replaceMarkers?_rebased origin location original
    rw [Json.replaceMarkers?_of_not_isMarker hnot, h] at hrebased
    exact Json.not_isMarker_of_mapParts? hnot hrebased hmarker

/-- A moved marker object names what it names where it comes from. -/
theorem exists_reference?_of_moved {origin value : String} {original : Json} {r : ModelReference}
    (hlocation : Location.IsFile location) (horigin : Location.IsFile origin)
    (hreached : Location.Reached location origin)
    (hvalue : original.marker? = some (.string value)) (hr : ModelReference.ofText value = .ok r)
    (hfolder : r.target origin ≠ Location.folder location) :
    ∃ r', (moved origin location original).reference? = some r' ∧
      r'.target (Location.normalized location) = r.target origin ∧ r'.pointer = r.pointer := by
  unfold moved
  split_ifs with hsame
  · subst hsame
    rw [Json.reference?_of_marker hvalue, hr, hreached.normalized_eq]
    exact ⟨r, rfl, rfl, rfl⟩
  · obtain ⟨value', target, hvalue', hr', hresolve⟩ :=
      Json.exists_marker?_rebased hvalue hr hlocation horigin hreached hfolder
    rw [Json.reference?_of_marker hvalue', hr']
    exact ⟨_, rfl, (Location.resolve_normalized hlocation target).trans hresolve, rfl⟩

/-- Below a marker object of a fragment nothing is rewritten. -/
theorem follow?_of_moved_below {origin : String} {part obj : Json} {path : List String}
    (hstrings : ∀ outer ∈ part.markers, ∃ value, outer.marker? = some (.string value))
    (hbelow : ¬part.PassesNoMarker path)
    (h : (moved origin location part).follow? path = some obj) (hmarker : obj.isMarker) :
    part.follow? path = some obj := by
  unfold moved at h
  split_ifs at h with hsame
  · exact h
  rw [Json.follow?_of_replaceMarkers? (Json.replaceMarkers?_rebased origin location part)] at h
  cases hfirst : part.firstMarker? path with
  | none =>
    refine absurd (fun found hfound => ?_) hbelow
    rw [hfirst] at hfound
    cases hfound
  | some found =>
    obtain ⟨outer, below⟩ := found
    obtain ⟨houter, hfollow⟩ := Json.firstMarker?_eq_some hfirst
    obtain ⟨value, hvalue⟩ := hstrings outer houter
    obtain ⟨members, rfl, hrebased⟩ := Json.rebased_of_marker origin location hvalue
    simp only [hfirst, Option.bind_some, hrebased] at h
    rw [hfollow]
    cases below with
    | nil =>
      refine absurd (fun found hfound => ?_) hbelow
      rw [hfirst, Option.mem_some_iff] at hfound
      rw [← hfound]
    | cons token below =>
      rw [Json.follow?, Json.step?, Entries.get?_insert] at h
      split_ifs at h with htoken
      · -- the marker itself is a text, and no object lies below it
        cases below with
        | nil =>
          cases h
          cases hmarker
        | cons token below => cases h
      · exact h

/-- Inlining that is not strict goes from one document of a lenient run to the next, up to the one
that it returns. A marker object that has come into such a document inside a fragment of another
one, below no other marker object of the fragment, names the document and the pointer that it names
where the fragment comes from, unless that is the directory of the inlined document. Below another
marker object it stands as it was written, and is read in the inlined document. -/
theorem inlined_names_same_place (hdocuments : ∀ e ∈ documents, Location.IsFile e.1)
    (hkeys : ∀ e ∈ documents, e.2.hasDistinctKeys) (hlocation : Location.IsFile location)
    (hdocument : document.hasDistinctKeys) :
    (∀ {cache settings result}, IsCacheOf documents cache → settings.strict = false →
        inlined documents cache settings location document = .ok result →
      ∃ passes, LenientPasses documents location document passes result ∧
        (∀ step ∈ passes, ∃ origin, LenientRun documents location document step.1 origin) ∧
        ∃ origin, LenientRun documents location document result origin) ∧
    ∀ {current origin}, LenientRun documents location document current origin →
      ∀ {obj place source pointer path}, current.follow? place = some obj → obj.isMarker →
        origin place = .fragment source pointer path →
      ∃ part, (Entries.get? source documents).bind (·.pointer? pointer) = some part ∧
        (part.PassesNoMarker path →
          ∃ original, part.follow? path = some original ∧ original.isMarker ∧
            ∀ value r, original.marker? = some (.string value) →
              ModelReference.ofText value = .ok r → r.target source ≠ Location.folder location →
                ∃ r', obj.reference? = some r' ∧
                  r'.target (Location.normalized location) = r.target source ∧
                  r'.pointer = r.pointer) ∧
        (¬part.PassesNoMarker path →
          (∀ outer ∈ part.markers, ∃ value, outer.marker? = some (.string value)) →
            part.follow? path = some obj) := by
  refine ⟨fun hcache hlenient h =>
    exists_lenientRun_of_inlined hkeys hdocument hlenient hcache h, ?_⟩
  intro current origin hrun obj place source pointer path hobj hmarker horigin
  obtain ⟨-, htraced⟩ := hrun.traced hdocuments hkeys hlocation hdocument
  have hholds := htraced place obj hobj hmarker
  rw [horigin] at hholds
  obtain ⟨sourceDocument, part, hsource, hpart, hreached, hfollow⟩ := hholds
  refine ⟨part, by rw [hsource, Option.bind_some, hpart], fun hclear => ?_,
    fun hbelow hstrings => follow?_of_moved_below hstrings hbelow hfollow hmarker⟩
  obtain ⟨original, horiginal, horiginalMarker, rfl⟩ :=
    exists_follow?_of_moved hclear hfollow hmarker
  refine ⟨original, horiginal, horiginalMarker, fun value r hvalue hr hfolder => ?_⟩
  exact exists_reference?_of_moved hlocation (hdocuments _ (Entries.mem_of_get? hsource)) hreached
    hvalue hr hfolder

/-- A document whose part `light` has a reference to another part. -/
def unitsDocument : Json :=
  .object [("light", .object [("unit", .object [("tm:ref", .string "#/lumen")])]),
    ("lumen", .string "lm")]

/-- A document that refers to the part `light`. -/
def switchDocument : Json :=
  .object [("level", .object [("tm:ref", .string "lib/units.json#/light")])]

/-- The document after one pass. -/
def switchWithUnit : Json :=
  .object [("level", .object [("unit", .object [("tm:ref", .string "lib/units.json#/lumen")])])]

/-- The document that is returned. -/
def switchInlined : Json := .object [("level", .object [("unit", .string "lm")])]

theorem inlined_names_same_place_unit :
    (∃ passes, LenientPasses [("lib/units.json", unitsDocument)] "switch.json" switchDocument
      passes switchInlined) ∧
    ∃ obj r', switchWithUnit.follow? ["level", "unit"] = some obj ∧ obj.reference? = some r' ∧
      r'.target (Location.normalized "switch.json") = "lib/units.json" ∧ r'.pointer = "/lumen" := by
  obtain ⟨hreturned, hplaces⟩ := @inlined_names_same_place [("lib/units.json", unitsDocument)]
    "switch.json" switchDocument (by decide) (by decide) (by decide) (by decide)
  have hinlined : inlined [("lib/units.json", unitsDocument)] ∅ {} "switch.json" switchDocument =
      .ok switchInlined :=
    eq_ok_of_toOption (Option.map_injective Json.compact_injective (by decide +kernel))
  obtain ⟨passes, hpasses, -⟩ := hreturned (isCacheOf_empty _) rfl hinlined
  refine ⟨⟨passes, hpasses⟩, ?_⟩
  have hpass : ((Reference.pass (m := Id) (Loader.ofDocuments [("lib/units.json", unitsDocument)])
      false "switch.json" switchDocument).run.run ∅).1 = .ok switchWithUnit :=
    eq_ok_of_toOption (Option.map_injective Json.compact_injective (by decide +kernel))
  have hrun := LenientRun.start.pass (isCacheOf_empty _) hpass
  obtain ⟨part, hpart, hclear, -⟩ :=
    hplaces hrun (show switchWithUnit.follow? ["level", "unit"] = some _ from rfl) rfl rfl
  obtain rfl := Option.some.inj ((show _ = some _ from rfl).symm.trans hpart)
  obtain ⟨original, horiginal, -, hnames⟩ := hclear (by decide)
  obtain rfl := Option.some.inj ((show _ = some _ from rfl).symm.trans horiginal)
  obtain ⟨r', hr', htarget, hpointer⟩ :=
    hnames "#/lumen" ⟨none, "/lumen"⟩ rfl rfl (by decide +kernel)
  exact ⟨_, r', rfl, hr', htarget, hpointer⟩

end Reference

end ThingTypes
