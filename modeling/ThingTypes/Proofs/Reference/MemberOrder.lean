import ThingTypes.Proofs.Reference.Dropping

/-
  The order of members around dropped references. A marker that is dropped leaves its place to the
  last member of the object, in front of the members that stood after the marker. Later passes keep
  the keys of the object as they are, so the members are out of order in the result as soon as two
  of them stood after the marker.
-/

namespace ThingTypes

/-- With the last entry in front, the keys are in the same order only if there is no other entry. -/
theorem map_getLast?_append_dropLast_eq_iff {α β : Type} {f : α → β} {l : List α}
    (hn : (l.map f).Nodup) :
    (l.getLast?.toList ++ l.dropLast).map f = l.map f ↔ l.length ≤ 1 := by
  rcases List.eq_nil_or_concat' l with rfl | ⟨front, last, rfl⟩
  · simp
  rw [List.getLast?_concat, List.dropLast_concat, Option.toList_some]
  cases front with
  | nil => simp
  | cons first front =>
    have hne : f last ≠ f first := by
      intro hsame
      simp [hsame] at hn
    simp [hne]

namespace Json

variable {f : Json → Option Json} {j k : Json} {members : List (String × Json)}

theorem exists_object_of_mapParts? (h : (object members).mapParts? f = some k) :
    ∃ members', k = object members' ∧ members'.map Prod.fst = members.map Prod.fst := by
  obtain ⟨members', hmembers, rfl⟩ := Option.map_eq_some_iff.mp h
  exact ⟨members', rfl, keys_of_changeValue? hmembers⟩

/-- An object that is no marker object, nor below one, keeps its keys. -/
theorem exists_object_of_replaceMarkers? {tokens : List String}
    (hclear : j.firstMarker? tokens = none) (hobj : j.follow? tokens = some (object members))
    (h : j.replaceMarkers? f = some k) :
    ∃ members', k.follow? tokens = some (object members') ∧
      members'.map Prod.fst = members.map Prod.fst := by
  induction tokens generalizing j k with
  | nil =>
    obtain rfl : j = object members := Option.some.inj hobj
    rw [replaceMarkers?_of_not_isMarker (not_isMarker_of_firstMarker? hclear)] at h
    obtain ⟨members', rfl, hkeys⟩ := exists_object_of_mapParts? h
    exact ⟨members', rfl, hkeys⟩
  | cons token tokens ih =>
    have hj := not_isMarker_of_firstMarker? hclear
    obtain ⟨part, hstep, hpart⟩ := Option.bind_eq_some_iff.mp hobj
    rw [firstMarker?, if_neg hj, hstep, Option.bind_some] at hclear
    rw [replaceMarkers?_of_not_isMarker hj] at h
    obtain ⟨part', hpart'⟩ := Option.isSome_iff_exists.mp
      (isSome_of_mapParts? h (mem_parts_of_step? hstep))
    rw [follow?, step?_of_mapParts? h, hstep, Option.bind_some, hpart', Option.bind_some]
    exact ih hclear hpart hpart'

end Json

namespace Reference

variable {documents : List (String × Json)} {location : String} {current result : Json}

theorem LenientPasses.follow?_object (hdocuments : ∀ e ∈ documents, e.2.hasDistinctKeys)
    {passes : List (Json × Json)} (hpasses : LenientPasses documents location current passes result)
    (hcurrent : current.hasDistinctKeys) {tokens : List String} {members : List (String × Json)}
    (hclear : current.firstMarker? tokens = none)
    (hobj : current.follow? tokens = some (.object members)) :
    ∃ members', result.follow? tokens = some (.object members') ∧
      members'.map Prod.fst = members.map Prod.fst := by
  induction hpasses generalizing members with
  | done => exact ⟨members, hobj, rfl⟩
  | pass hcache hpass _ ih =>
    have hanswer := (answers_pass documents false location hcurrent _ hcache).1
    rw [hpass] at hanswer
    have hreplaced := hanswer.symm
    have hclear' := Json.firstMarker?_of_replaceMarkers? hreplaced tokens
    rw [hclear, Option.bind_none] at hclear'
    obtain ⟨members', hobj', hkeys⟩ :=
      Json.exists_object_of_replaceMarkers? hclear hobj hreplaced
    obtain ⟨last, hlast, hkeys'⟩ :=
      ih (hasDistinctKeys_of_pass hdocuments hcurrent hreplaced) hclear' hobj'
    exact ⟨last, hlast, hkeys'.trans hkeys⟩

end Reference

/-- In a lenient run that returns, an object whose reference designates nothing loses its marker, and
its last member moves to where the marker stood. It stays so in the result: the other members keep
their order only if at most one of them stood after the marker. -/
theorem inlined_moves_last_member {documents : List (String × Json)} {cache : DocumentCache}
    {settings : InliningSettings} {location : String} {document result : Json}
    (hdocuments : ∀ e ∈ documents, e.2.hasDistinctKeys) (hdocument : document.hasDistinctKeys)
    (hcache : IsCacheOf documents cache) (hlenient : settings.strict = false)
    (h : inlined documents cache settings location document = .ok result) :
    ∃ passes, Reference.LenientPasses documents location document passes result ∧
      ∀ step ∈ passes, ∀ site ∈ step.1.referenceSites,
        Reference.fetchedText? documents location step.1 site.reference = some none →
          ∃ before value after kept members,
            step.1.pointer? site.parentPath =
              some (.object (before ++ (modelRefKey, value) :: after)) ∧
            kept = before ++ (after.getLast?.toList ++ after.dropLast) ∧
            step.2.pointer? site.parentPath = some (.object kept) ∧
            result.pointer? site.parentPath = some (.object members) ∧
            members.map Prod.fst = kept.map Prod.fst ∧
            (members.map Prod.fst = (before ++ after).map Prod.fst ↔ after.length ≤ 1) := by
  obtain ⟨passes, hpasses⟩ :=
    Reference.exists_lenientPasses_of_inlinePasses hlenient hdocuments hdocument hcache h
  refine ⟨passes, hpasses, fun step hstep site hsite hfetched => ?_⟩
  obtain ⟨hbefore, hreplaced, rest, -, hrest⟩ := hpasses.of_mem hdocuments hdocument hstep
  obtain ⟨tokens, obj, htokens, hobj, hpart, hafter⟩ :=
    Reference.exists_obj_of_pass hbefore hreplaced hsite hfetched
  have hdistinct := Json.hasDistinctKeys_of_follow? hbefore hobj.follow
  obtain ⟨before, value, after, rfl, hkept⟩ :=
    Json.exists_members_of_isMarker hdistinct hobj.isMarker
  rw [Option.getD_none, hkept] at hafter hpart
  -- what is left is no marker object, so later passes go on below it only
  have hclear : step.2.firstMarker? tokens = none := by
    rw [Json.firstMarker?_of_replaceMarkers? hreplaced,
      Json.firstMarker?_eq_some_nil_iff.mpr hobj, Option.bind_some, hpart, Option.bind_some,
      Json.firstMarker?, if_neg (hkept ▸ Json.not_isMarker_withoutMarker hdistinct)]
  obtain ⟨members, hmembers, hkeys⟩ := hrest.follow?_object hdocuments
    (Reference.hasDistinctKeys_of_pass hdocuments hbefore hreplaced) hclear hafter
  refine ⟨before, value, after, _, members, ?_, rfl, ?_, ?_, hkeys, ?_⟩
  · rw [Json.pointer?, htokens]
    exact hobj.follow
  · rw [Json.pointer?, htokens]
    exact hafter
  · rw [Json.pointer?, htokens]
    exact hmembers
  · have hnodup : (after.map Prod.fst).Nodup := by
      have hkeys := (Json.hasDistinctKeys_iff.mp hdistinct).1
      rw [Json.keys, List.map_append, List.map_cons] at hkeys
      exact (List.nodup_append.mp hkeys).2.1.of_cons
    have hafter : (before ++ after).map Prod.fst = before.map Prod.fst ++ after.map Prod.fst :=
      List.map_append
    rw [hkeys, hafter, List.map_append, List.append_cancel_left_eq,
      map_getLast?_append_dropLast_eq_iff hnodup]

/-- A document with a property whose reference designates nothing, and its other members behind. -/
def sceneDocument : Json :=
  .object [("properties", .object [("x", .object [("tm:ref", .string "#/missing"),
    ("type", .string "object"), ("title", .string "X"), ("format", .string "f")])])]

/-- The document with the reference dropped and the last member in front. -/
def sceneInlined : Json :=
  .object [("properties", .object [("x", .object [("format", .string "f"),
    ("type", .string "object"), ("title", .string "X")])])]

theorem inlined_moves_last_member_scene :
    inlined [] ∅ {} "scene.json" sceneDocument = .ok sceneInlined ∧
      ∃ before after members,
        sceneDocument.pointer? "/properties/x" =
          some (.object (before ++ ("tm:ref", .string "#/missing") :: after)) ∧
        sceneInlined.pointer? "/properties/x" = some (.object members) ∧
        members.map Prod.fst ≠ (before ++ after).map Prod.fst := by
  have hresult : inlined [] ∅ {} "scene.json" sceneDocument = .ok sceneInlined :=
    eq_ok_of_toOption (Option.map_injective Json.compact_injective (by decide +kernel))
  refine ⟨hresult, ?_⟩
  obtain ⟨passes, hpasses, hdrops⟩ := @inlined_moves_last_member [] ∅ {} "scene.json" sceneDocument
    sceneInlined (by simp) (by decide) (isCacheOf_empty _) rfl hresult
  have hsite : ⟨"/properties/x", "#/missing"⟩ ∈ sceneDocument.referenceSites := by decide
  generalize sceneInlined = result at hpasses hdrops ⊢
  cases hpasses with
  | done hnil =>
    rw [hnil] at hsite
    cases hsite
  | pass hcache hpass hrest =>
    obtain ⟨before, value, after, kept, members, hbefore, -, -, hmembers, -, horder⟩ :=
      hdrops _ List.mem_cons_self _ hsite rfl
    have hsplit := Json.object.inj (Option.some.inj hbefore)
    obtain rfl : before = [] := by
      rcases before with _ | ⟨first, _ | ⟨second, _ | ⟨third, _ | ⟨fourth, before⟩⟩⟩⟩ <;>
        simp [modelRefKey] at hsplit ⊢
    obtain ⟨hmarker, rfl⟩ := List.cons.inj hsplit
    obtain ⟨-, rfl⟩ := Prod.mk.inj hmarker
    exact ⟨[], _, members, rfl, hmembers, fun h => absurd (horder.mp h) (by decide)⟩

end ThingTypes
