import ThingTypes.Proofs.Json.Substitution
import ThingTypes.Proofs.Reference.Markers

/-
  The sites of a document are its outermost marker objects. The path of a site leads to the object,
  whatever keys and indices are on the way, and every outermost marker object has a site. The sites
  stand in document order, so no way to a site is the beginning of another.
-/

namespace ThingTypes.Json

variable {j part : Json} {token : String} {tokens p q : List String} {path : String}
  {site : ReferenceSite}

theorem not_isMarker_object {members : List (String × Json)} :
    ¬(object members).isMarker ↔ Entries.get? modelRefKey members = none := by
  simp [isMarker, marker?, get?, members?]

theorem sitesAt_of_marker? {value : Json} (h : j.marker? = some value) (path : String) :
    j.sitesAt path = [⟨path, value.asText⟩] := by
  cases j with
  | object members =>
    have hmarker : Entries.get? modelRefKey members = some value := h
    rw [sitesAt, hmarker]
  | _ => cases h

theorem sitesInMembers_eq (path : String) (members : List (String × Json)) :
    sitesInMembers path members =
      members.flatMap fun m => m.2.sitesAt (Pointer.child path m.1) := by
  induction members with
  | nil => rw [sitesInMembers, List.flatMap_nil]
  | cons m members ih => rw [sitesInMembers, ih, List.flatMap_cons]

theorem sitesInItems_eq (path : String) (index : Nat) (items : List Json) :
    sitesInItems path index items =
      (items.zipIdx index).flatMap fun e => e.1.sitesAt (Pointer.child path (toString e.2)) := by
  induction items generalizing index with
  | nil => rw [sitesInItems, List.zipIdx_nil, List.flatMap_nil]
  | cons j items ih =>
    rw [sitesInItems, ih, List.zipIdx_cons, List.flatMap_cons, Pointer.child_toString]

/-- Outside of marker objects the sites are those of the parts, one token deeper. -/
theorem sitesAt_of_not_isMarker (hj : ¬j.isMarker) (path : String) :
    j.sitesAt path = j.steps.flatMap fun s => s.2.sitesAt (Pointer.child path s.1) := by
  cases j with
  | object members => rw [sitesAt, not_isMarker_object.mp hj, sitesInMembers_eq, steps]
  | array items => rw [sitesAt, sitesInItems_eq, steps, List.flatMap_map]
  | _ => simp [sitesAt, steps]

/-! ## The object of a site -/

/-- The tokens lead to a marker object, and through none before it. -/
structure IsOutermost (j : Json) (tokens : List String) (obj : Json) : Prop where
  follow : j.follow? tokens = some obj
  isMarker : obj.isMarker
  outermost : ∀ above below, tokens = above ++ below → below ≠ [] →
    ∀ outer, j.follow? above = some outer → ¬outer.isMarker

theorem isOutermost_nil {obj : Json} : j.IsOutermost [] obj ↔ obj = j ∧ j.isMarker := by
  constructor
  · intro h
    obtain rfl : j = obj := Option.some.inj h.follow
    exact ⟨rfl, h.isMarker⟩
  · rintro ⟨rfl, hmarker⟩
    exact ⟨rfl, hmarker, fun above below happend hne =>
      absurd (List.append_eq_nil_iff.mp happend.symm).2 hne⟩

theorem isOutermost_cons {obj : Json} :
    j.IsOutermost (token :: tokens) obj ↔
      ¬j.isMarker ∧ ∃ part, j.step? token = some part ∧ part.IsOutermost tokens obj := by
  constructor
  · intro h
    obtain ⟨part, hpart, hfollow⟩ := Option.bind_eq_some_iff.mp h.follow
    refine ⟨h.outermost [] (token :: tokens) rfl (List.cons_ne_nil _ _) j rfl, part, hpart,
      hfollow, h.isMarker, fun above below happend hne outer houter => ?_⟩
    refine h.outermost (token :: above) below (congrArg _ happend) hne outer ?_
    rw [follow?, hpart]
    exact houter
  · rintro ⟨hj, part, hpart, hfollow, hmarker, houtermost⟩
    refine ⟨by rw [follow?, hpart]; exact hfollow, hmarker,
      fun above below happend hne outer houter => ?_⟩
    cases above with
    | nil =>
      obtain rfl : j = outer := Option.some.inj houter
      exact hj
    | cons t above =>
      obtain ⟨rfl, rfl⟩ := List.cons.inj happend
      rw [follow?, hpart] at houter
      exact houtermost above below rfl hne outer houter

theorem firstMarker?_eq_some_nil_iff {obj : Json} :
    j.firstMarker? tokens = some (obj, []) ↔ j.IsOutermost tokens obj := by
  induction tokens generalizing j with
  | nil =>
    rw [isOutermost_nil, firstMarker?]
    split_ifs with hj <;> simp [hj, eq_comm]
  | cons token tokens ih =>
    rw [isOutermost_cons, firstMarker?]
    split_ifs with hj
    · simp [hj]
    · simp [hj, Option.bind_eq_some_iff, ih]

/-- A site stands for an outermost marker object, to which its path leads. -/
theorem exists_isOutermost_of_mem_sitesAt (hj : j.hasDistinctKeys)
    (hpath : Pointer.tokens? path = some tokens) (h : site ∈ j.sitesAt path) :
    ∃ below obj value, Pointer.tokens? site.parentPath = some (tokens ++ below) ∧
      j.IsOutermost below obj ∧ obj.marker? = some value ∧ site.reference = value.asText := by
  induction j using byMarkers generalizing path tokens with
  | marker j hmarker =>
    obtain ⟨value, hvalue⟩ := Option.isSome_iff_exists.mp hmarker
    rw [sitesAt_of_marker? hvalue, List.mem_singleton] at h
    subst h
    exact ⟨[], j, value, by simpa using hpath, isOutermost_nil.mpr ⟨rfl, hmarker⟩, hvalue, rfl⟩
  | other j hmarker ih =>
    rw [sitesAt_of_not_isMarker hmarker] at h
    obtain ⟨⟨token, part⟩, hstep, hsite⟩ := List.mem_flatMap.mp h
    have hpart := mem_parts_of_mem_steps hstep
    obtain ⟨below, obj, value, htokens, hobj, hvalue⟩ := ih part hpart
      ((hasDistinctKeys_iff.mp hj).2 part hpart) (Pointer.tokens?_child hpath token) hsite
    exact ⟨token :: below, obj, value, by simpa using htokens,
      isOutermost_cons.mpr ⟨hmarker, part, (mem_steps_iff hj).mp hstep, hobj⟩, hvalue⟩

theorem exists_isOutermost_of_mem_referenceSites (hj : j.hasDistinctKeys)
    (h : site ∈ j.referenceSites) :
    ∃ tokens obj value, Pointer.tokens? site.parentPath = some tokens ∧
      j.IsOutermost tokens obj ∧ obj.marker? = some value ∧ site.reference = value.asText :=
  exists_isOutermost_of_mem_sitesAt hj Pointer.tokens?_empty h

/-- Every outermost marker object has a site. -/
theorem IsOutermost.exists_site {obj : Json} (h : j.IsOutermost p obj) (hj : j.hasDistinctKeys)
    (hpath : Pointer.tokens? path = some tokens) :
    ∃ site ∈ j.sitesAt path, Pointer.tokens? site.parentPath = some (tokens ++ p) := by
  induction p generalizing j path tokens with
  | nil =>
    obtain ⟨rfl, hmarker⟩ := isOutermost_nil.mp h
    obtain ⟨value, hvalue⟩ := Option.isSome_iff_exists.mp hmarker
    rw [sitesAt_of_marker? hvalue]
    exact ⟨_, List.mem_singleton_self _, by simpa using hpath⟩
  | cons token p ih =>
    obtain ⟨hmarker, part, hpart, hobj⟩ := isOutermost_cons.mp h
    obtain ⟨site, hsite, htokens⟩ := ih hobj
      ((hasDistinctKeys_iff.mp hj).2 part (mem_parts_of_step? hpart))
      (Pointer.tokens?_child hpath token)
    rw [sitesAt_of_not_isMarker hmarker]
    exact ⟨site, List.mem_flatMap.mpr ⟨_, (mem_steps_iff hj).mpr hpart, hsite⟩,
      by simpa using htokens⟩

/-! ## Document order -/

/-- The first way turns off to an earlier part than the second one. -/
inductive Before : Json → List String → List String → Prop
  | apart {j : Json} {token token' : String} (p q : List String) :
      [token, token'].Sublist (j.steps.map Prod.fst) → Before j (token :: p) (token' :: q)
  | inside {j part : Json} {token : String} {p q : List String} :
      j.step? token = some part → Before part p q → Before j (token :: p) (token :: q)

theorem Before.apart_of_hasDistinctKeys (h : j.Before p q) (hj : j.hasDistinctKeys) :
    Pointer.Apart p q := by
  induction h with
  | apart p q hsub =>
    have hne := List.nodup_cons.mp ((nodup_steps hj).sublist hsub)
    simp only [List.mem_singleton] at hne
    simp [Pointer.Apart, List.cons_prefix_cons, hne.1, Ne.symm hne.1]
  | inside hpart _ ih =>
    exact Pointer.apart_cons_iff.mpr
      (ih ((hasDistinctKeys_iff.mp hj).2 _ (mem_parts_of_step? hpart)))

/-- The sites stand in document order. -/
theorem pairwise_sitesAt (hj : j.hasDistinctKeys) (hpath : Pointer.tokens? path = some tokens) :
    (j.sitesAt path).Pairwise fun site later =>
      ∃ p q, Pointer.tokens? site.parentPath = some (tokens ++ p) ∧
        Pointer.tokens? later.parentPath = some (tokens ++ q) ∧ j.Before p q := by
  induction j using byMarkers generalizing path tokens with
  | marker j hmarker =>
    obtain ⟨value, hvalue⟩ := Option.isSome_iff_exists.mp hmarker
    rw [sitesAt_of_marker? hvalue]
    exact List.pairwise_singleton _ _
  | other j hmarker ih =>
    have hparts := (hasDistinctKeys_iff.mp hj).2
    rw [sitesAt_of_not_isMarker hmarker, List.pairwise_flatMap]
    constructor
    · rintro ⟨token, part⟩ hstep
      have hpart := mem_parts_of_mem_steps hstep
      refine (ih part hpart (hparts part hpart) (Pointer.tokens?_child hpath token)).imp ?_
      rintro site later ⟨p, q, hp, hq, hbefore⟩
      exact ⟨token :: p, token :: q, by simpa using hp, by simpa using hq,
        .inside ((mem_steps_iff hj).mp hstep) hbefore⟩
    · refine List.pairwise_iff_forall_sublist.mpr fun {s t} hsub site hsite later hlater => ?_
      have hs := mem_parts_of_mem_steps (hsub.subset (List.mem_cons_self (l := [t])))
      have ht := mem_parts_of_mem_steps (hsub.subset (List.mem_cons_of_mem s List.mem_cons_self))
      obtain ⟨p, -, -, hp, -⟩ := exists_isOutermost_of_mem_sitesAt (hparts _ hs)
        (Pointer.tokens?_child hpath s.1) hsite
      obtain ⟨q, -, -, hq, -⟩ := exists_isOutermost_of_mem_sitesAt (hparts _ ht)
        (Pointer.tokens?_child hpath t.1) hlater
      exact ⟨s.1 :: p, t.1 :: q, by simpa using hp, by simpa using hq,
        .apart p q (hsub.map Prod.fst)⟩

theorem pairwise_referenceSites (hj : j.hasDistinctKeys) :
    j.referenceSites.Pairwise fun site later =>
      ∃ p q, Pointer.tokens? site.parentPath = some p ∧
        Pointer.tokens? later.parentPath = some q ∧ j.Before p q ∧ Pointer.Apart p q := by
  refine (pairwise_sitesAt hj Pointer.tokens?_empty).imp ?_
  rintro site later ⟨p, q, hp, hq, hbefore⟩
  exact ⟨p, q, hp, hq, hbefore, hbefore.apart_of_hasDistinctKeys hj⟩

end ThingTypes.Json
