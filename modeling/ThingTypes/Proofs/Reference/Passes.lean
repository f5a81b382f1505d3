import ThingTypes.Proofs.Reference.Moved
import ThingTypes.Proofs.Reference.Sites
import ThingTypes.Reference.Inlining

/-
  A pass replaces the outermost marker objects. With documents that are given up front, whatever
  has been loaded before, a pass succeeds when each marker object has a replacement: the fragment
  that it refers to, taken from the document as it stands before the pass, or, unless the run is
  strict, the object without its marker. A run of inlining is one replacement after the other.
-/

namespace ThingTypes

variable {α β : Type} {documents : List (String × Json)} {cache : DocumentCache}

theorem eq_ok_of_toOption {ε : Type} {r : Except ε α} {a : α} (h : r.toOption = some a) :
    r = .ok a := by
  cases r with
  | error e => cases h
  | ok b =>
    obtain rfl : b = a := Option.some.inj h
    rfl

/-- Everything kept has been loaded from the documents. -/
def IsCacheOf (documents : List (String × Json)) (cache : DocumentCache) : Prop :=
  ∀ location document, cache.get? location = some document →
    Entries.get? location documents = some document

theorem isCacheOf_empty (documents : List (String × Json)) : IsCacheOf documents ∅ :=
  fun _ _ h => by simp at h

theorem InlineM.run_bind (act : InlineM Id α) (f : α → InlineM Id β) (cache : DocumentCache) :
    (act >>= f).run.run cache =
      match act.run.run cache with
      | (.ok a, cache') => (f a).run.run cache'
      | (.error e, cache') => (.error e, cache') := by
  rw [ExceptT.run_bind, StateT.run_bind]
  rcases act.run.run cache with ⟨e | a, cache'⟩ <;> rfl

/-- Whatever has been loaded before, the action gives this answer, or fails where there is none. -/
def Answers (documents : List (String × Json)) (act : InlineM Id α) (answer? : Option α) : Prop :=
  ∀ cache, IsCacheOf documents cache →
    (act.run.run cache).1.toOption = answer? ∧ IsCacheOf documents (act.run.run cache).2

namespace Answers

variable {act : InlineM Id α} {f : α → InlineM Id β} {answer? : Option α} {g : α → Option β}

theorem pure (a : α) : Answers documents (Pure.pure a) (some a) :=
  fun _ hcache => ⟨rfl, hcache⟩

theorem throw (e : GenerationError) : Answers documents (throw e : InlineM Id α) none :=
  fun _ hcache => ⟨rfl, hcache⟩

theorem bind (h : Answers documents act answer?)
    (hf : ∀ a, answer? = some a → Answers documents (f a) (g a)) :
    Answers documents (act >>= f) (answer?.bind g) := by
  intro cache hcache
  obtain ⟨hanswer, hcache'⟩ := h cache hcache
  rw [InlineM.run_bind]
  generalize act.run.run cache = result at hanswer hcache'
  obtain ⟨e | a, cache'⟩ := result
  · subst hanswer
    exact ⟨rfl, hcache'⟩
  · subst hanswer
    exact hf a rfl cache' hcache'

theorem liftExcept (r : Except GenerationError α) :
    Answers documents (liftExcept r) r.toOption := by
  cases r with
  | ok a => exact pure a
  | error e => exact throw e

theorem map {g : α → β} (h : Answers documents act answer?) :
    Answers documents (do return g (← act)) (answer?.map g) := by
  rw [Option.map_eq_bind]
  exact h.bind fun a _ => pure (g a)

end Answers

namespace Reference

variable {location : String} {document : Json}

theorem run_cachedDocument (documents : List (String × Json)) (location : String)
    (cache : DocumentCache) :
    (cachedDocument (m := Id) (Loader.ofDocuments documents) location).run.run cache =
      match cache.get? location, Entries.get? location documents with
      | some document, _ => (.ok document, cache)
      | none, some document => (.ok document, cache.insert location document)
      | none, none => (.error (.load location .unknownDocument), cache) := by
  have hget : (get : InlineM Id DocumentCache).run.run cache = (.ok cache, cache) := rfl
  unfold cachedDocument
  rw [InlineM.run_bind, hget]
  dsimp only
  cases cache.get? location with
  | some document => rfl
  | none =>
    cases hdocument : Entries.get? location documents with
    | none =>
      simp only [loadDocument, Loader.ofDocuments, hdocument]
      rfl
    | some document =>
      simp only [loadDocument, Loader.ofDocuments, hdocument]
      rfl

theorem answers_cachedDocument (documents : List (String × Json)) (location : String) :
    Answers documents (cachedDocument (Loader.ofDocuments documents) location)
      (Entries.get? location documents) := by
  intro cache hcache
  rw [run_cachedDocument]
  cases hkept : cache.get? location with
  | some document => exact ⟨(hcache location document hkept).symm, hcache⟩
  | none =>
    cases hdocument : Entries.get? location documents with
    | none => exact ⟨rfl, hcache⟩
    | some document =>
      refine ⟨rfl, fun location' document' h => ?_⟩
      change (cache.insert location document).get? location' = some document' at h
      rw [OrderedMap.get?_insert] at h
      split_ifs at h with hsame
      · rw [hsame, hdocument, ← h]
      · exact hcache location' document' h

/-- A fragment of the document at `origin` as it stands in the one at `base`. -/
def moved (origin base : String) (part : Json) : Json :=
  if origin = base then part else part.rebased origin base

/-- The fragment that a reference designates, if its document is there; `none` inside if there is
no such fragment. -/
def fetched? (documents : List (String × Json)) (base : String) (current : Json)
    (r : ModelReference) : Option (Option Json) :=
  match r.document? with
  | none => some (current.pointer? r.pointer)
  | some _ =>
    (Entries.get? (r.target base) documents).map fun source =>
      (source.pointer? r.pointer).map (moved (r.target base) base)

theorem answers_fetch (documents : List (String × Json)) (base : String) (current : Json)
    (r : ModelReference) :
    Answers documents (fetch (Loader.ofDocuments documents) base current r)
      (fetched? documents base current r) := by
  obtain ⟨document?, pointer⟩ := r
  unfold fetch fetched? ModelReference.target
  cases document? with
  | none => exact Answers.pure _
  | some document =>
    have hmoved : (fun source : Json => if Location.resolve base document = base
          then source.pointer? pointer
          else (source.pointer? pointer).map (Json.rebased (Location.resolve base document) base)) =
        fun source =>
          (source.pointer? pointer).map (moved (Location.resolve base document) base) := by
      funext source
      unfold moved
      split_ifs <;> simp
    dsimp only
    rw [← hmoved]
    exact (answers_cachedDocument documents (Location.resolve base document)).map

/-- The fragment that the text of a reference designates. -/
def fetchedText? (documents : List (String × Json)) (base : String) (current : Json)
    (text : String) : Option (Option Json) :=
  (ModelReference.ofText text).toOption.bind (fetched? documents base current)

theorem answers_fetchAll (documents : List (String × Json)) (base : String) (current : Json)
    (sites : List ReferenceSite) :
    Answers documents (fetchAll (Loader.ofDocuments documents) base current sites)
      (sites.mapM fun site =>
        (fetchedText? documents base current site.reference).map (Prod.mk site)) := by
  induction sites with
  | nil => exact Answers.pure []
  | cons site sites ih =>
    have hanswer : ((site :: sites).mapM fun site =>
          (fetchedText? documents base current site.reference).map (Prod.mk site)) =
        (ModelReference.ofText site.reference).toOption.bind fun r =>
          (fetched? documents base current r).bind fun fragment? =>
            (sites.mapM fun site =>
              (fetchedText? documents base current site.reference).map (Prod.mk site)).map
              ((site, fragment?) :: ·) := by
      rw [List.mapM_cons, fetchedText?]
      cases (ModelReference.ofText site.reference).toOption with
      | none => rfl
      | some r =>
        cases hfetched : fetched? documents base current r <;>
          simp [hfetched, Option.map_eq_bind]
    rw [hanswer]
    exact (Answers.liftExcept _).bind fun r _ =>
      (answers_fetch documents base current r).bind fun fragment? _ => ih.map

/-! ## Putting fragments in place -/

/-- What takes the place of a marker object. -/
def part? (strict : Bool) (obj : Json) (fragment? : Option Json) : Option Json :=
  fragment?.or (if strict then none else some obj.withoutMarker)

variable {strict : Bool} {tokens : List String} {context : Json → Json} {path : String}

/-- A fragment is put where an object is found. -/
theorem toOption_splice {current obj : Json} {site : ReferenceSite}
    (hpath : Pointer.tokens? site.parentPath = some tokens)
    (hfollow : current.follow? tokens = some obj)
    (hput : ∀ part, Json.putAt? part current tokens = some (context part)) (strict : Bool)
    (location : String) (fragment? : Option Json) :
    (splice strict location current site fragment?).toOption =
      (part? strict obj fragment?).map context := by
  have hobj : current.pointer? site.parentPath = some obj := by
    rw [Json.pointer?, hpath]
    exact hfollow
  have hreplace (part : Json) : current.replace? site.parentPath part = some (context part) := by
    rw [Json.replace?, hpath]
    exact hput part
  unfold splice part?
  cases fragment? with
  | some fragment => simp [hobj, hreplace, pure, Except.pure, bind, Except.bind, Except.toOption]
  | none =>
    cases strict <;>
      simp [hobj, hreplace, pure, Except.pure, bind, Except.bind, Except.toOption, throw, throwThe,
        MonadExceptOf.throw]

theorem splice_hole (hcontext : Json.IsHole tokens context)
    (hpath : Pointer.tokens? path = some tokens) (strict : Bool) (location reference : String)
    (obj : Json) (fragment? : Option Json) :
    (splice strict location (context obj) ⟨path, reference⟩ fragment?).toOption =
      (part? strict obj fragment?).map context :=
  toOption_splice hpath (hcontext.follow obj) (hcontext.put obj) strict location fragment?

/-- Fetching and putting in place site by site. -/
def spliceSites? (fetch? : String → Option (Option Json)) (strict : Bool) (location : String) :
    Json → List ReferenceSite → Option Json
  | document, [] => some document
  | document, site :: rest => do
    let fragment? ← fetch? site.reference
    let changed ← (splice strict location document site fragment?).toOption
    spliceSites? fetch? strict location changed rest

/-- It makes no difference whether all fragments are fetched first. -/
theorem bind_spliceAll (fetch? : String → Option (Option Json)) (strict : Bool) (location : String)
    (document : Json) (sites : List ReferenceSite) :
    ((sites.mapM fun site => (fetch? site.reference).map (Prod.mk site)).bind fun fragments =>
        (spliceAll strict location document fragments).toOption) =
      spliceSites? fetch? strict location document sites := by
  induction sites generalizing document with
  | nil => rfl
  | cons site sites ih =>
    rw [List.mapM_cons, spliceSites?]
    cases fetch? site.reference with
    | none => rfl
    | some fragment? =>
      simp only [Option.map_some, Option.bind_eq_bind, Option.bind_some, Option.pure_def,
        Option.bind_assoc, spliceAll]
      cases hsplice : splice strict location document site fragment? with
      | error e => simp [Except.toOption]
      | ok changed => exact ih changed

/-- What replaces a marker object, if the text of its reference is read by `fetch?`. -/
def replaced? (fetch? : String → Option (Option Json)) (strict : Bool) (obj : Json) : Option Json :=
  obj.marker?.bind fun value => (fetch? value.asText).bind (part? strict obj)

/-- Wherever the value stands, to splice its sites is to replace its marker objects. -/
def SplicesInPlace (fetch? : String → Option (Option Json)) (strict : Bool) (location : String)
    (j : Json) : Prop :=
  ∀ tokens path context, Json.IsHole tokens context → Pointer.tokens? path = some tokens →
    ∀ rest, spliceSites? fetch? strict location (context j) (j.sitesAt path ++ rest) =
      (j.replaceMarkers? (replaced? fetch? strict)).bind fun j' =>
        spliceSites? fetch? strict location (context j') rest

variable {fetch? : String → Option (Option Json)}

theorem splicesInPlace_of_isMarker {j : Json} (hj : j.isMarker) :
    SplicesInPlace fetch? strict location j := by
  intro tokens path context hcontext hpath rest
  cases j with
  | object members =>
    obtain ⟨value, hvalue⟩ := Option.isSome_iff_exists.mp hj
    have hmarker : Entries.get? modelRefKey members = some value := hvalue
    rw [Json.replaceMarkers?_of_isMarker hj, replaced?, hvalue, Json.sitesAt, hmarker]
    simp only [List.singleton_append, spliceSites?, splice_hole hcontext hpath,
      Option.bind_eq_bind, Option.bind_some, Option.bind_assoc, Option.bind_map]
    rfl
  | _ => cases hj

theorem spliceSites?_sitesInItems {after : List Json}
    (hparts : ∀ j ∈ after, SplicesInPlace fetch? strict location j)
    (hcontext : Json.IsHole tokens context) (hpath : Pointer.tokens? path = some tokens)
    (before : List Json) (rest : List ReferenceSite) :
    spliceSites? fetch? strict location (context (.array (before ++ after)))
        (Json.sitesInItems path before.length after ++ rest) =
      (after.mapM (Json.replaceMarkers? (replaced? fetch? strict))).bind fun after' =>
        spliceSites? fetch? strict location (context (.array (before ++ after'))) rest := by
  induction after generalizing before with
  | nil => rfl
  | cons j after ih =>
    rw [Json.sitesInItems, List.append_assoc, List.mapM_cons]
    rw [hparts j List.mem_cons_self _ _ _ (hcontext.item before after)
      (Pointer.tokens?_item hpath before.length)]
    simp only [Option.bind_eq_bind, Option.bind_assoc, Option.pure_def, Option.bind_some]
    refine congrArg _ (funext fun j' => ?_)
    have hnext := ih (fun part hpart => hparts part (List.mem_cons_of_mem _ hpart)) (before ++ [j'])
    simpa using hnext

theorem spliceSites?_sitesInMembers {after : List (String × Json)}
    (hparts : ∀ m ∈ after, SplicesInPlace fetch? strict location m.2)
    (hcontext : Json.IsHole tokens context) (hpath : Pointer.tokens? path = some tokens)
    (before : List (String × Json)) (hkeys : ((before ++ after).map Prod.fst).Nodup)
    (rest : List ReferenceSite) :
    spliceSites? fetch? strict location (context (.object (before ++ after)))
        (Json.sitesInMembers path after ++ rest) =
      (after.mapM (Json.changeValue? (Json.replaceMarkers? (replaced? fetch? strict)))).bind
        fun after' =>
          spliceSites? fetch? strict location (context (.object (before ++ after'))) rest := by
  induction after generalizing before with
  | nil => rfl
  | cons m after ih =>
    obtain ⟨key, j⟩ := m
    have hkey : key ∉ before.map Prod.fst := by
      rw [List.map_append, List.map_cons, List.nodup_append] at hkeys
      exact fun hmem => hkeys.2.2 key hmem key List.mem_cons_self rfl
    rw [Json.sitesInMembers, List.append_assoc, List.mapM_cons]
    rw [hparts (key, j) List.mem_cons_self _ _ _ (hcontext.member hkey after)
      (Pointer.tokens?_child hpath key)]
    simp only [Json.changeValue?, Option.bind_eq_bind, Option.bind_assoc, Option.pure_def,
      Option.bind_map]
    refine congrArg _ (funext fun j' => ?_)
    have hnext := ih (fun m hm => hparts m (List.mem_cons_of_mem _ hm)) (before ++ [(key, j')])
      (by simpa using hkeys)
    simpa [Option.bind_assoc] using hnext

theorem splicesInPlace {j : Json} (hj : j.hasDistinctKeys) :
    SplicesInPlace fetch? strict location j := by
  induction j using Json.byMarkers with
  | marker j hmarker =>
    exact splicesInPlace_of_isMarker hmarker
  | other j hmarker ih =>
    intro tokens path context hcontext hpath rest
    obtain ⟨hkeys, hparts⟩ := Json.hasDistinctKeys_iff.mp hj
    rw [Json.replaceMarkers?_of_not_isMarker hmarker]
    cases j with
    | object members =>
      have hnone := Json.not_isMarker_object.mp hmarker
      have hvalues : ∀ m ∈ members, SplicesInPlace fetch? strict location m.2 := fun m hm =>
        have hpart : m.2 ∈ (Json.object members).parts := List.mem_map_of_mem hm
        ih m.2 hpart (hparts m.2 hpart)
      rw [Json.sitesAt, hnone, Json.mapParts?, Option.bind_map]
      exact spliceSites?_sitesInMembers hvalues hcontext hpath [] hkeys rest
    | array items =>
      rw [Json.sitesAt, Json.mapParts?, Option.bind_map]
      exact spliceSites?_sitesInItems (fun j hj => ih j hj (hparts j hj)) hcontext hpath [] rest
    | _ => rfl

/-! ## Passes -/

/-- What replaces a marker object in a pass over a document. -/
def replacement? (documents : List (String × Json)) (strict : Bool) (location : String)
    (document : Json) : Json → Option Json :=
  replaced? (fetchedText? documents location document) strict

theorem replacement?_eq (documents : List (String × Json)) (strict : Bool) (location : String)
    (document obj : Json) :
    replacement? documents strict location document obj =
      obj.reference?.bind fun r =>
        (fetched? documents location document r).bind (part? strict obj) := by
  simp only [replacement?, replaced?, fetchedText?, Json.reference?, Option.bind_assoc]

/-- A reference to the document at hand is read in it as it stands. -/
theorem replacement?_of_none {current obj : Json} {pointer : String}
    (hr : obj.reference? = some ⟨none, pointer⟩) :
    replacement? documents true location current obj = current.pointer? pointer := by
  rw [replacement?_eq, hr, Option.bind_some]
  cases hpart : current.pointer? pointer <;> simp [fetched?, hpart, part?]

/-- A reference to another document brings a fragment that has moved. -/
theorem replacement?_of_some {current obj : Json} {target pointer : String}
    (hr : obj.reference? = some ⟨some target, pointer⟩) :
    replacement? documents true location current obj =
      (Entries.get? (Location.resolve location target) documents).bind fun source =>
        (source.pointer? pointer).map (moved (Location.resolve location target) location) := by
  rw [replacement?_eq, hr, Option.bind_some]
  simp only [fetched?, ModelReference.target, Option.bind_map]
  refine congrArg _ (funext fun source => ?_)
  cases hpart : source.pointer? pointer <;> simp [hpart, part?]

/-- One pass over a document. -/
def pass {m : Type → Type} [Monad m] (load : Loader m) (strict : Bool) (location : String)
    (document : Json) : InlineM m Json := do
  let fragments ← fetchAll load location document document.referenceSites
  liftExcept (spliceAll strict location document fragments)

/-- A run of passes goes on while there are references. -/
theorem inlinePasses_succ {m : Type → Type} [Monad m] [LawfulMonad m] (load : Loader m)
    (settings : InliningSettings) (location : String) (remaining : Nat) (document : Json) :
    inlinePasses load settings location (remaining + 1) document =
      if document.referenceSites = [] then Pure.pure document
      else pass load settings.strict location document >>=
        inlinePasses load settings location remaining := by
  unfold inlinePasses pass
  cases h : document.referenceSites with
  | nil => rfl
  | cons first rest => simp [bind_assoc]

theorem answers_pass (documents : List (String × Json)) (strict : Bool) (location : String)
    (hdocument : document.hasDistinctKeys) :
    Answers documents (pass (Loader.ofDocuments documents) strict location document)
      (document.replaceMarkers? (replacement? documents strict location document)) := by
  have hanswer := (answers_fetchAll documents location document document.referenceSites).bind
    fun fragments _ => Answers.liftExcept (spliceAll strict location document fragments)
  have hsplice : spliceSites? (fetchedText? documents location document) strict location document
      document.referenceSites =
        document.replaceMarkers? (replacement? documents strict location document) := by
    have hplace : SplicesInPlace (fetchedText? documents location document) strict location
      document := splicesInPlace hdocument
    have h := hplace [] "" id Json.isHole_id rfl []
    rw [List.append_nil] at h
    exact h.trans (Option.bind_fun_some _)
  rw [← hsplice, ← bind_spliceAll]
  exact hanswer

theorem sitesAt_eq_nil_iff {j : Json} (path : String) : j.sitesAt path = [] ↔ j.markers = [] := by
  induction j using Json.byMarkers generalizing path with
  | marker j hmarker =>
    obtain ⟨value, hvalue⟩ := Option.isSome_iff_exists.mp hmarker
    simp [Json.sitesAt_of_marker? hvalue, Json.markers_of_isMarker hmarker]
  | other j hmarker ih =>
    rw [Json.sitesAt_of_not_isMarker hmarker, Json.markers_of_not_isMarker hmarker,
      ← Json.map_snd_steps, List.flatMap_eq_nil_iff, List.flatMap_map, List.flatMap_eq_nil_iff]
    exact forall₂_congr fun s hs => ih s.2 (Json.mem_parts_of_mem_steps hs) _

/-- A run of passes, at most `remaining` of them. -/
def passes? (documents : List (String × Json)) (strict : Bool) (location : String) :
    Nat → Json → Option Json
  | 0, document => document.replaceMarkers? fun _ => none
  | remaining + 1, document =>
    (document.replaceMarkers? (replacement? documents strict location document)).bind
      (passes? documents strict location remaining)

/-- What a reference brings has distinct keys, if the documents have. -/
theorem hasDistinctKeys_of_fetched? (hdocuments : ∀ e ∈ documents, e.2.hasDistinctKeys)
    (hdocument : document.hasDistinctKeys) {r : ModelReference} {part : Json}
    (h : fetched? documents location document r = some (some part)) : part.hasDistinctKeys := by
  unfold fetched? at h
  have hpart {source fragment : Json} (hsource : source.hasDistinctKeys)
      (hfragment : source.pointer? r.pointer = some fragment) : fragment.hasDistinctKeys := by
    obtain ⟨tokens, -, hfollow⟩ := Option.bind_eq_some_iff.mp hfragment
    exact Json.hasDistinctKeys_of_follow? hsource hfollow
  split at h
  · exact hpart hdocument (Option.some.inj h)
  · obtain ⟨source, hsource, h⟩ := Option.map_eq_some_iff.mp h
    obtain ⟨fragment, hfragment, rfl⟩ := Option.map_eq_some_iff.mp h
    have hdistinct := hpart (hdocuments _ (Entries.mem_of_get? hsource)) hfragment
    unfold moved
    split_ifs
    · exact hdistinct
    · exact Json.hasDistinctKeys_rebased hdistinct

theorem hasDistinctKeys_of_replacement? (hdocuments : ∀ e ∈ documents, e.2.hasDistinctKeys)
    (hdocument : document.hasDistinctKeys) {obj part : Json} (hobj : obj ∈ document.markers)
    (h : replacement? documents strict location document obj = some part) :
    part.hasDistinctKeys := by
  obtain ⟨value, -, h⟩ := Option.bind_eq_some_iff.mp h
  obtain ⟨fragment?, hfetched, h⟩ := Option.bind_eq_some_iff.mp h
  obtain ⟨r, -, hfetched⟩ := Option.bind_eq_some_iff.mp hfetched
  cases fragment? with
  | some fragment =>
    cases h
    exact hasDistinctKeys_of_fetched? hdocuments hdocument hfetched
  | none =>
    cases strict with
    | true => cases h
    | false =>
      cases h
      exact Json.hasDistinctKeys_withoutMarker (Json.hasDistinctKeys_of_mem_markers hdocument hobj)

theorem hasDistinctKeys_of_pass (hdocuments : ∀ e ∈ documents, e.2.hasDistinctKeys)
    (hdocument : document.hasDistinctKeys) {changed : Json}
    (h : document.replaceMarkers? (replacement? documents strict location document) =
      some changed) :
    changed.hasDistinctKeys :=
  Json.hasDistinctKeys_of_replaceMarkers? hdocument
    (fun _ hobj _ => hasDistinctKeys_of_replacement? hdocuments hdocument hobj) h

/-- What holds of a document without references, and of the document before a pass when it holds of
the one after it, holds of the document that a run of inlining starts from. -/
theorem of_inlinePasses (P : Json → Prop) (hdocuments : ∀ e ∈ documents, e.2.hasDistinctKeys)
    {settings : InliningSettings} {current result : Json}
    (hdone : result.referenceSites = [] → P result)
    (hstep : ∀ {before after : Json} {cache : DocumentCache}, IsCacheOf documents cache →
      ((pass (m := Id) (Loader.ofDocuments documents) settings.strict location before).run.run
        cache).1 = .ok after → P after → P before)
    (hcurrent : current.hasDistinctKeys) {cache : DocumentCache}
    (hcache : IsCacheOf documents cache) {remaining : Nat}
    (h : ((inlinePasses (m := Id) (Loader.ofDocuments documents) settings location remaining
      current).run.run cache).1 = .ok result) : P current := by
  induction remaining generalizing current cache with
  | zero =>
    rw [inlinePasses] at h
    cases hsites : current.referenceSites with
    | nil =>
      rw [hsites] at h
      obtain rfl := Except.ok.inj h
      exact hdone hsites
    | cons first rest =>
      rw [hsites] at h
      cases h
  | succ remaining ih =>
    rw [inlinePasses_succ] at h
    split_ifs at h with hsites
    · obtain rfl := Except.ok.inj h
      exact hdone hsites
    rw [InlineM.run_bind] at h
    obtain ⟨hanswer, hcache'⟩ := answers_pass documents settings.strict location hcurrent cache
      hcache
    cases hpass : (pass (m := Id) (Loader.ofDocuments documents) settings.strict location
      current).run.run cache with
    | mk answer cache' =>
      rw [hpass] at h hanswer hcache'
      cases answer with
      | error e => cases h
      | ok changed =>
        have hchanged := hasDistinctKeys_of_pass hdocuments hcurrent hanswer.symm
        exact hstep hcache (by rw [hpass]) (ih hchanged hcache' h)

/-- The passes of a lenient run, each from the document before it to the one after it, up to a
document without references. -/
inductive LenientPasses (documents : List (String × Json)) (location : String) :
    Json → List (Json × Json) → Json → Prop where
  | done {current : Json} :
      current.referenceSites = [] → LenientPasses documents location current [] current
  | pass {current changed result : Json} {cache : DocumentCache} {passes : List (Json × Json)} :
      IsCacheOf documents cache →
      ((pass (m := Id) (Loader.ofDocuments documents) false location current).run.run cache).1 =
        .ok changed →
      LenientPasses documents location changed passes result →
      LenientPasses documents location current ((current, changed) :: passes) result

/-- A run of the inlining loop that returns is a run of passes. -/
theorem exists_lenientPasses_of_inlinePasses {settings : InliningSettings}
    (hlenient : settings.strict = false) (hdocuments : ∀ e ∈ documents, e.2.hasDistinctKeys)
    {current result : Json} (hcurrent : current.hasDistinctKeys) {cache : DocumentCache}
    (hcache : IsCacheOf documents cache) {remaining : Nat}
    (h : ((inlinePasses (m := Id) (Loader.ofDocuments documents) settings location remaining
      current).run.run cache).1 = .ok result) :
    ∃ passes, LenientPasses documents location current passes result := by
  refine of_inlinePasses (fun reached => ∃ passes, LenientPasses documents location reached passes
    result) hdocuments (fun hsites => ⟨[], .done hsites⟩) (fun hcache hpass ⟨passes, hpasses⟩ => ?_)
    hcurrent hcache h
  rw [hlenient] at hpass
  exact ⟨_, .pass hcache hpass hpasses⟩

theorem passes?_of_markers_eq_nil (remaining : Nat) (h : document.markers = []) :
    passes? documents strict location remaining document = some document := by
  induction remaining with
  | zero => exact Json.replaceMarkers?_of_markers_eq_nil h
  | succ remaining ih =>
    rw [passes?, Json.replaceMarkers?_of_markers_eq_nil h, Option.bind_some, ih]

/-- A run of inlining is a run of passes. -/
theorem answers_inlinePasses (hdocuments : ∀ e ∈ documents, e.2.hasDistinctKeys)
    (settings : InliningSettings) (location : String) (remaining : Nat)
    (hdocument : document.hasDistinctKeys) :
    Answers documents
      (inlinePasses (Loader.ofDocuments documents) settings location remaining document)
      (passes? documents settings.strict location remaining document) := by
  induction remaining generalizing document with
  | zero =>
    cases hsites : document.referenceSites with
    | nil =>
      rw [passes?_of_markers_eq_nil 0 ((sitesAt_eq_nil_iff "").mp hsites), inlinePasses, hsites]
      exact Answers.pure document
    | cons first rest =>
      have hnone : document.replaceMarkers? (fun _ => none) = none := by
        rw [Option.eq_none_iff_forall_ne_some]
        intro changed h
        have hnil := (sitesAt_eq_nil_iff "").mpr (Json.replaceMarkers?_none_eq_some_iff.mp h).1
        rw [← Json.referenceSites, hsites] at hnil
        cases hnil
      rw [passes?, hnone, inlinePasses, hsites]
      exact Answers.throw _
  | succ remaining ih =>
    rw [inlinePasses_succ]
    split_ifs with hsites
    · rw [passes?_of_markers_eq_nil _ ((sitesAt_eq_nil_iff "").mp hsites)]
      exact Answers.pure document
    · exact (answers_pass documents settings.strict location hdocument).bind
        fun changed hchanged => ih (hasDistinctKeys_of_pass hdocuments hdocument hchanged)

end Reference

/-- What inlining gives over documents that are given up front, after what has been loaded. -/
def inlined (documents : List (String × Json)) (cache : DocumentCache)
    (settings : InliningSettings) (location : String) (document : Json) :
    Except GenerationError Json :=
  ((inlineReferences (m := Id) (Loader.ofDocuments documents) settings location
    document).run.run cache).1

/-- What inlining gives is what the passes give, whatever has been loaded before. -/
theorem toOption_inlined (hdocuments : ∀ e ∈ documents, e.2.hasDistinctKeys)
    (hcache : IsCacheOf documents cache) (settings : InliningSettings) (location : String)
    {document : Json} (hdocument : document.hasDistinctKeys) :
    (inlined documents cache settings location document).toOption =
      Reference.passes? documents settings.strict location settings.maxPasses document :=
  (Reference.answers_inlinePasses hdocuments settings location settings.maxPasses hdocument
    cache hcache).1

end ThingTypes
