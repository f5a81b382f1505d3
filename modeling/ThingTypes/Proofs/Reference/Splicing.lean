import ThingTypes.Proofs.Reference.Passes
import ThingTypes.Proofs.Reference.Sites

/-
  Fragments put in place one after the other. As no way to a site is the beginning of another, a
  fragment neither moves the sites that follow nor changes what stands there, and the outcome is
  the document with all fragments put in place at once.
-/

namespace ThingTypes

namespace Reference

variable {strict : Bool} {location : String} {document : Json}

/-- The place of a site with what is put there. -/
def placed? (strict : Bool) (document : Json) (f : ReferenceSite × Option Json) :
    Option (List String × Json) := do
  let tokens ← Pointer.tokens? f.1.parentPath
  let obj ← document.follow? tokens
  let part ← part? strict obj f.2
  return (tokens, part)

theorem placed?_eq_some_iff {f : ReferenceSite × Option Json} {place : List String × Json} :
    placed? strict document f = some place ↔
      Pointer.tokens? f.1.parentPath = some place.1 ∧
        ∃ obj, document.follow? place.1 = some obj ∧ part? strict obj f.2 = some place.2 := by
  obtain ⟨tokens, part⟩ := place
  simp only [placed?, Option.bind_eq_bind, Option.pure_def, Option.bind_eq_some_iff,
    Option.some.injEq, Prod.mk.injEq]
  constructor
  · rintro ⟨_, htokens, obj, hobj, _, hpart, rfl, rfl⟩
    exact ⟨htokens, obj, hobj, hpart⟩
  · rintro ⟨htokens, obj, hobj, hpart⟩
    exact ⟨tokens, htokens, obj, hobj, part, hpart, rfl, rfl⟩

/-- No way to one of the sites is the beginning of another. -/
def SitesApart (sites : List ReferenceSite) : Prop :=
  sites.Pairwise fun site later =>
    ∃ p q, Pointer.tokens? site.parentPath = some p ∧ Pointer.tokens? later.parentPath = some q ∧
      Pointer.Apart p q

theorem toOption_spliceAll_cons (strict : Bool) (location : String) (current : Json)
    (f : ReferenceSite × Option Json) (fragments : List (ReferenceSite × Option Json)) :
    (spliceAll strict location current (f :: fragments)).toOption =
      (splice strict location current f.1 f.2).toOption.bind fun changed =>
        (spliceAll strict location changed fragments).toOption := by
  rw [spliceAll]
  cases splice strict location current f.1 f.2 <;> rfl

/-- A part that is put in before others, where none of them has been put in. -/
theorem update_or_get? {parts : List String → Option Json} {tokens : List String}
    (hparts : parts tokens = none) (part : Json) (places : List (List String × Json)) :
    (fun place =>
      (Function.update parts tokens (some part) place).or (Entries.get? place places)) =
      fun place => (parts place).or (Entries.get? place ((tokens, part) :: places)) := by
  funext place
  by_cases hsame : place = tokens
  · simp [hsame, hparts, Entries.get?]
  · simp [hsame, Ne.symm hsame, Entries.get?]

/-- The fragments that are left are put in place after those that have been put in at `parts`. -/
theorem toOption_spliceAll_substitute (hdocument : document.hasDistinctKeys)
    {fragments : List (ReferenceSite × Option Json)} {parts : List String → Option Json}
    (hsites : ∀ f ∈ fragments, ∃ tokens obj, Pointer.tokens? f.1.parentPath = some tokens ∧
      document.follow? tokens = some obj ∧ Json.LeavesFree parts tokens)
    (hapart : SitesApart (fragments.map Prod.fst)) (strict : Bool) (location : String) :
    (spliceAll strict location (document.substitute parts) fragments).toOption =
      (fragments.mapM (placed? strict document)).map fun places =>
        document.substitute fun place => (parts place).or (Entries.get? place places) := by
  induction fragments generalizing parts with
  | nil => simp [spliceAll, Except.toOption, Entries.get?]
  | cons f fragments ih =>
    obtain ⟨tokens, obj, htokens, hobj, hfree⟩ := hsites f List.mem_cons_self
    rw [SitesApart, List.map_cons, List.pairwise_cons] at hapart
    have hfollow : (document.substitute parts).follow? tokens = some obj :=
      (Json.follow?_substitute hfree document).trans hobj
    have hput (part : Json) : Json.putAt? part (document.substitute parts) tokens =
        some (document.substitute (Function.update parts tokens (some part))) :=
      Json.putAt?_substitute hdocument hobj hfree
    have hplaced : placed? strict document f = (part? strict obj f.2).map (Prod.mk tokens) := by
      rw [placed?, htokens, Option.bind_eq_bind, Option.bind_some, hobj, Option.map_eq_bind]
      rfl
    rw [toOption_spliceAll_cons, toOption_splice htokens hfollow hput, List.mapM_cons, hplaced]
    cases part? strict obj f.2 with
    | none => rfl
    | some part =>
      -- the sites that are left stay free, as no way to one of them leads through this one
      have hrest : ∀ f' ∈ fragments, ∃ tokens' obj',
          Pointer.tokens? f'.1.parentPath = some tokens' ∧ document.follow? tokens' = some obj' ∧
            Json.LeavesFree (Function.update parts tokens (some part)) tokens' := by
        intro f' hf'
        obtain ⟨tokens', obj', htokens', hobj', hfree'⟩ := hsites f' (List.mem_cons_of_mem _ hf')
        obtain ⟨p, q, hp, hq, hpq⟩ := hapart.1 f'.1 (List.mem_map_of_mem hf')
        obtain rfl := Option.some.inj (htokens.symm.trans hp)
        obtain rfl := Option.some.inj (htokens'.symm.trans hq)
        exact ⟨tokens', obj', htokens', hobj', hfree'.update hpq part⟩
      have hparts := update_or_get? (hfree.eq_none (.inl List.prefix_rfl)) part
      rw [Option.map_some, Option.bind_some, ih hrest hapart.2, Option.map_some,
        Option.bind_eq_bind, Option.bind_some]
      simp only [hparts]
      cases fragments.mapM (placed? strict document) <;> rfl

/-- The other members of an object that carries a reference, in some order. -/
def IsWithoutMarker (obj part : Json) : Prop :=
  ∃ members value kept, obj = .object members ∧ part = .object kept ∧
    members.Perm ((modelRefKey, value) :: kept)

theorem isWithoutMarker_withoutMarker {obj : Json} (hobj : obj.hasDistinctKeys)
    (hmarker : obj.isMarker) : IsWithoutMarker obj obj.withoutMarker := by
  obtain ⟨before, value, after, rfl, hkept⟩ := Json.exists_members_of_isMarker hobj hmarker
  refine ⟨_, value, _, rfl, hkept, List.perm_middle.trans (.cons _ (.append_left _ ?_))⟩
  exact (Entries.getLast?_append_dropLast_perm after).symm

/-- What stands at the sites after all of them have been replaced: the fragment, or the object
without its marker. -/
structure ReplacesSites (document : Json) (fragments : List (ReferenceSite × Option Json))
    (parts : List String → Option Json) : Prop where
  site : ∀ f ∈ fragments, ∃ tokens obj part, Pointer.tokens? f.1.parentPath = some tokens ∧
    document.IsOutermost tokens obj ∧ parts tokens = some part ∧
      f.2.elim (IsWithoutMarker obj part) (part = ·)
  only : ∀ tokens, (parts tokens).isSome →
    ∃ f ∈ fragments, Pointer.tokens? f.1.parentPath = some tokens

variable {fragments : List (ReferenceSite × Option Json)}

theorem sitesApart_referenceSites (hdocument : document.hasDistinctKeys) :
    SitesApart document.referenceSites := by
  refine (Json.pairwise_referenceSites hdocument).imp ?_
  rintro site later ⟨p, q, hp, hq, -, hapart⟩
  exact ⟨p, q, hp, hq, hapart⟩

theorem exists_isOutermost_of_mem_fragments (hdocument : document.hasDistinctKeys)
    (hfragments : fragments.map Prod.fst = document.referenceSites)
    {f : ReferenceSite × Option Json} (hf : f ∈ fragments) :
    ∃ tokens obj, Pointer.tokens? f.1.parentPath = some tokens ∧
      document.IsOutermost tokens obj := by
  have hsite : f.1 ∈ document.referenceSites := hfragments ▸ List.mem_map_of_mem hf
  obtain ⟨tokens, obj, -, htokens, hobj, -⟩ :=
    Json.exists_isOutermost_of_mem_referenceSites hdocument hsite
  exact ⟨tokens, obj, htokens, hobj⟩

/-- To put fragments in place one after the other is to put them in place at once. -/
theorem toOption_spliceAll (hdocument : document.hasDistinctKeys)
    (hfragments : fragments.map Prod.fst = document.referenceSites) (strict : Bool)
    (location : String) :
    (spliceAll strict location document fragments).toOption =
      (fragments.mapM (placed? strict document)).map fun places =>
        document.substitute (Entries.get? · places) := by
  have hsites : ∀ f ∈ fragments, ∃ tokens obj, Pointer.tokens? f.1.parentPath = some tokens ∧
      document.follow? tokens = some obj ∧ Json.LeavesFree (fun _ => none) tokens := by
    intro f hf
    obtain ⟨tokens, obj, htokens, hobj⟩ :=
      exists_isOutermost_of_mem_fragments hdocument hfragments hf
    exact ⟨tokens, obj, htokens, hobj.follow, Json.leavesFree_none tokens⟩
  have h := toOption_spliceAll_substitute hdocument hsites
    (hfragments ▸ sitesApart_referenceSites hdocument) strict location
  simpa only [Json.substitute_none, Option.none_or] using h

theorem isSome_placed?_iff (hdocument : document.hasDistinctKeys)
    (hfragments : fragments.map Prod.fst = document.referenceSites)
    {f : ReferenceSite × Option Json} (hf : f ∈ fragments) :
    (placed? strict document f).isSome ↔ (strict = true → f.2.isSome) := by
  obtain ⟨tokens, obj, htokens, hobj⟩ :=
    exists_isOutermost_of_mem_fragments hdocument hfragments hf
  rw [placed?, htokens, Option.bind_eq_bind, Option.bind_some, hobj.follow]
  cases strict <;> cases f.2 <;> simp [part?]

theorem nodup_keys_of_placed? (hdocument : document.hasDistinctKeys)
    (hfragments : fragments.map Prod.fst = document.referenceSites)
    {places : List (List String × Json)}
    (hplaces : fragments.mapM (placed? strict document) = some places) :
    (places.map Prod.fst).Nodup := by
  have hapart := sitesApart_referenceSites hdocument
  rw [← hfragments, SitesApart, List.pairwise_map] at hapart
  have hne : (fragments.map (placed? strict document)).Pairwise fun a b =>
      ∀ x ∈ a, ∀ y ∈ b, x.1 ≠ y.1 := by
    refine List.pairwise_map.mpr (hapart.imp ?_)
    rintro f g ⟨p, q, hp, hq, hpq⟩ x hx y hy hsame
    obtain rfl := Option.some.inj (hp.symm.trans (placed?_eq_some_iff.mp hx).1)
    obtain rfl := Option.some.inj (hq.symm.trans (placed?_eq_some_iff.mp hy).1)
    exact hpq.1 (hsame ▸ List.prefix_rfl)
  rw [mapM_eq_some_iff_map.mp hplaces, List.pairwise_map] at hne
  exact List.pairwise_map.mpr (hne.imp fun h => h _ rfl _ rfl)

theorem replacesSites_of_placed? (hdocument : document.hasDistinctKeys)
    (hfragments : fragments.map Prod.fst = document.referenceSites)
    {places : List (List String × Json)}
    (hplaces : fragments.mapM (placed? strict document) = some places) :
    ReplacesSites document fragments (Entries.get? · places) := by
  constructor
  · intro f hf
    obtain ⟨tokens, obj, htokens, hobj⟩ :=
      exists_isOutermost_of_mem_fragments hdocument hfragments hf
    obtain ⟨⟨_, part⟩, hplace⟩ := Option.isSome_iff_exists.mp (isSome_of_mapM hplaces hf)
    obtain ⟨htokens', obj', hobj', hpart⟩ := placed?_eq_some_iff.mp hplace
    obtain rfl := Option.some.inj (htokens.symm.trans htokens')
    obtain rfl := Option.some.inj (hobj.follow.symm.trans hobj')
    refine ⟨tokens, obj, part, htokens, hobj, ?_, ?_⟩
    · exact Entries.get?_of_mem (nodup_keys_of_placed? hdocument hfragments hplaces)
        ((mem_mapM_iff hplaces).mpr ⟨f, hf, hplace⟩)
    · unfold part? at hpart
      cases hfragment : f.2 with
      | some fragment =>
        rw [hfragment, Option.some_or, Option.some.injEq] at hpart
        exact hpart.symm
      | none =>
        rw [hfragment, Option.none_or] at hpart
        split_ifs at hpart
        obtain rfl := Option.some.inj hpart
        exact isWithoutMarker_withoutMarker
          (Json.hasDistinctKeys_of_follow? hdocument hobj.follow) hobj.isMarker
  · intro tokens h
    obtain ⟨part, hpart⟩ := Option.isSome_iff_exists.mp h
    obtain ⟨f, hf, hplace⟩ := (mem_mapM_iff hplaces).mp (Entries.mem_of_get? hpart)
    exact ⟨f, hf, (placed?_eq_some_iff.mp hplace).1⟩

/-- Only a fragment can be missing, not the place where it goes. -/
theorem exists_spliceAll_iff (hdocument : document.hasDistinctKeys)
    (hfragments : fragments.map Prod.fst = document.referenceSites) (strict : Bool)
    (location : String) :
    (∃ changed, spliceAll strict location document fragments = .ok changed) ↔
      (strict = true → ∀ f ∈ fragments, f.2.isSome) := by
  have hsplice := toOption_spliceAll hdocument hfragments strict location
  constructor
  · rintro ⟨changed, hchanged⟩ hstrict f hf
    rw [hchanged] at hsplice
    obtain ⟨places, hplaces, -⟩ := Option.map_eq_some_iff.mp hsplice.symm
    exact (isSome_placed?_iff hdocument hfragments hf).mp (isSome_of_mapM hplaces hf) hstrict
  · intro hall
    obtain ⟨places, hplaces⟩ := exists_mapM_of_isSome fun f hf =>
      (isSome_placed?_iff hdocument hfragments hf).mpr fun hstrict => hall hstrict f hf
    rw [hplaces] at hsplice
    exact ⟨_, eq_ok_of_toOption hsplice⟩

/-- The sites of a document stand for its outermost marker objects, each once and in document order,
and each path leads to its object. To put fragments in place one after the other fails only where a
strict run lacks a fragment, and gives the document with all sites replaced at once. -/
theorem sites_replaced_at_once (hdocument : document.hasDistinctKeys) :
    (∀ site ∈ document.referenceSites, ∃ tokens obj value,
      Pointer.tokens? site.parentPath = some tokens ∧
        document.pointer? site.parentPath = some obj ∧ document.IsOutermost tokens obj ∧
          obj.marker? = some value ∧ site.reference = value.asText) ∧
      (∀ tokens obj, document.IsOutermost tokens obj →
        ∃ site ∈ document.referenceSites, Pointer.tokens? site.parentPath = some tokens) ∧
      document.referenceSites.Pairwise (fun site later => ∃ p q,
        Pointer.tokens? site.parentPath = some p ∧ Pointer.tokens? later.parentPath = some q ∧
          document.Before p q ∧ Pointer.Apart p q) ∧
      ∀ strict location fragments, fragments.map Prod.fst = document.referenceSites →
        ((∃ changed, spliceAll strict location document fragments = .ok changed) ↔
          (strict = true → ∀ f ∈ fragments, f.2.isSome)) ∧
        ∀ changed, spliceAll strict location document fragments = .ok changed →
          ∃ parts, ReplacesSites document fragments parts ∧ changed = document.substitute parts ∧
            ∀ tokens, Json.LeavesFree parts tokens →
              changed.follow? tokens = document.follow? tokens := by
  refine ⟨fun site hsite => ?_, fun tokens obj hobj => ?_, ?_,
    fun strict location fragments hfragments => ⟨?_, fun changed hchanged => ?_⟩⟩
  · obtain ⟨tokens, obj, value, htokens, hobj, hvalue⟩ :=
      Json.exists_isOutermost_of_mem_referenceSites hdocument hsite
    refine ⟨tokens, obj, value, htokens, ?_, hobj, hvalue⟩
    rw [Json.pointer?, htokens]
    exact hobj.follow
  · exact hobj.exists_site hdocument Pointer.tokens?_empty
  · exact Json.pairwise_referenceSites hdocument
  · exact exists_spliceAll_iff hdocument hfragments strict location
  · have hsplice := toOption_spliceAll hdocument hfragments strict location
    rw [hchanged] at hsplice
    obtain ⟨places, hplaces, rfl⟩ := Option.map_eq_some_iff.mp hsplice.symm
    exact ⟨_, replacesSites_of_placed? hdocument hfragments hplaces, rfl,
      fun tokens hfree => Json.follow?_substitute hfree document⟩

/-- A document with references in an array and below keys that are written with escapes. -/
def nestedDocument : Json :=
  .object [("a/b", .object [
    ("~", .array [.int 0, .object [("tm:ref", .string "#/x"), ("type", .string "string")]]),
    ("", .object [("tm:ref", .string "y.json#/z")])])]

/-- Its sites, one without a fragment and one with. -/
def nestedFragments : List (ReferenceSite × Option Json) :=
  [(⟨"/a~1b/~0/1", "#/x"⟩, none), (⟨"/a~1b/", "y.json#/z"⟩, some (.int 1))]

theorem sites_replaced_at_once_nested :
    nestedDocument.hasDistinctKeys ∧ nestedFragments.map Prod.fst = nestedDocument.referenceSites ∧
      ∃ changed parts,
        spliceAll false "nested.json" nestedDocument nestedFragments = .ok changed ∧
          ReplacesSites nestedDocument nestedFragments parts ∧
          changed = nestedDocument.substitute parts := by
  have hdocument : nestedDocument.hasDistinctKeys := by decide
  have hfragments : nestedFragments.map Prod.fst = nestedDocument.referenceSites := by decide
  obtain ⟨-, -, -, hsplice⟩ := sites_replaced_at_once hdocument
  obtain ⟨hreturns, hreplaces⟩ := hsplice false "nested.json" nestedFragments hfragments
  obtain ⟨changed, hchanged⟩ := hreturns.mpr (by simp)
  obtain ⟨parts, hparts, heq, -⟩ := hreplaces changed hchanged
  exact ⟨hdocument, hfragments, changed, parts, hchanged, hparts, heq⟩

end Reference

end ThingTypes
