import ThingTypes.Proofs.Json.Text
import ThingTypes.Proofs.Reference.Passes

/-
  Inlining as expansion. To expand a document is to replace each outermost marker object by the
  expansion of the fragment that it refers to, read in the document that it names. Passes get there
  another way: they read references to the document at hand in what earlier passes have made of
  it, and fragments of other documents with rewritten references.

  After every pass the document is the original one with each outermost marker object replaced by
  some value that expands to the same as the object itself. What a strict run returns is therefore
  the expansion, and a run with as many passes as references are nested returns it. The one
  exception is a fragment with a reference to the directory of the inlined document.
-/

namespace ThingTypes

namespace Reference

variable {documents : List (String × Json)} {location : String} {document : Json}

/-- The expansion of a value in the document at a location, where references are nested at most
`depth` times and all of them resolve. -/
def expand? (documents : List (String × Json)) : Nat → String → Json → Option Json
  | 0, _, j => j.replaceMarkers? fun _ => none
  | depth + 1, location, j =>
    j.replaceMarkers? fun obj => do
      let r ← obj.reference?
      let source ← Entries.get? (r.target location) documents
      let fragment ← source.pointer? r.pointer
      expand? documents depth (r.target location) fragment

/-- The expansion of a marker object. -/
def expansion? (documents : List (String × Json)) : Nat → String → Json → Option Json
  | 0, _, _ => none
  | depth + 1, location, obj =>
    obj.reference?.bind fun r =>
      (Entries.get? (r.target location) documents).bind fun source =>
        (source.pointer? r.pointer).bind (expand? documents depth (r.target location))

theorem expand?_eq (depth : Nat) (location : String) (j : Json) :
    expand? documents depth location j =
      j.replaceMarkers? (expansion? documents depth location) := by
  cases depth <;> rfl

theorem expand?_of_isMarker {obj : Json} (hobj : obj.isMarker) (depth : Nat) (location : String) :
    expand? documents depth location obj = expansion? documents depth location obj := by
  rw [expand?_eq, Json.replaceMarkers?_of_isMarker hobj]

/-- More depth changes no expansion. -/
theorem expand?_succ {depth : Nat} {j k : Json} (h : expand? documents depth location j = some k) :
    expand? documents (depth + 1) location j = some k := by
  induction depth generalizing location j k with
  | zero =>
    refine Json.replaceMarkers?_mono (fun _ _ _ hnone => ?_) h
    cases hnone
  | succ depth ih =>
    refine Json.replaceMarkers?_mono (fun obj _ part hpart => ?_) h
    obtain ⟨r, hr, hpart⟩ := Option.bind_eq_some_iff.mp hpart
    obtain ⟨source, hsource, hpart⟩ := Option.bind_eq_some_iff.mp hpart
    obtain ⟨fragment, hfragment, hpart⟩ := Option.bind_eq_some_iff.mp hpart
    simp only [hr, hsource, hfragment, Option.bind_eq_bind, Option.bind_some]
    exact ih hpart

theorem expansion?_succ {depth : Nat} {obj k : Json} (hobj : obj.isMarker)
    (h : expansion? documents depth location obj = some k) :
    expansion? documents (depth + 1) location obj = some k := by
  rw [← expand?_of_isMarker hobj] at h ⊢
  exact expand?_succ h

theorem expansion?_add {depth : Nat} {obj k : Json} (hobj : obj.isMarker)
    (h : expansion? documents depth location obj = some k) (more : Nat) :
    expansion? documents (depth + more) location obj = some k := by
  induction more with
  | zero => exact h
  | succ more ih => exact expansion?_succ hobj ih

/-- An expansion depends on what is referred to, and not on where it is referred to from. -/
theorem expansion?_congr {obj obj' : Json} {r r' : ModelReference} {location' : String}
    (hr : obj.reference? = some r) (hr' : obj'.reference? = some r')
    (htarget : r.target location = r'.target location') (hpointer : r.pointer = r'.pointer)
    (depth : Nat) :
    expansion? documents depth location obj = expansion? documents depth location' obj' := by
  cases depth with
  | zero => rfl
  | succ depth =>
    simp only [expansion?, hr, hr', Option.bind_some]
    rw [htarget, hpointer]

/-! ## Libraries -/

/-- A marker object in the document at a location whose text is a reference with a pointer that
leads through no marker object. -/
def IsPlainMarker (documents : List (String × Json)) (location : String) (obj : Json) : Prop :=
  ∃ value r, obj.marker? = some (.string value) ∧ ModelReference.ofText value = .ok r ∧
    ∀ source ∈ Entries.get? (r.target location) documents, ∀ tokens ∈ Pointer.tokens? r.pointer,
      source.PassesNoMarker tokens

instance (documents : List (String × Json)) (location : String) (obj : Json) :
    Decidable (IsPlainMarker documents location obj) :=
  decidable_of_iff
    (∃ value ∈ obj.marker?.bind Json.string?, ∃ r ∈ (ModelReference.ofText value).toOption,
      ∀ source ∈ Entries.get? (r.target location) documents, ∀ tokens ∈ Pointer.tokens? r.pointer,
        source.PassesNoMarker tokens) <| by
    constructor
    · rintro ⟨value, hvalue, r, hr, hclear⟩
      obtain ⟨marker, hmarker, hstring⟩ := Option.bind_eq_some_iff.mp hvalue
      obtain rfl : marker = .string value := by
        cases marker <;> simp_all [Json.string?]
      exact ⟨value, r, hmarker, eq_ok_of_toOption hr, hclear⟩
    · rintro ⟨value, r, hvalue, hr, hclear⟩
      exact ⟨value, by rw [hvalue]; rfl, r, by rw [hr]; rfl, hclear⟩

/-- Documents at relative locations of files, where no file is a directory on the way to another,
and with references that are plain. -/
structure IsLibrary (documents : List (String × Json)) : Prop where
  file : ∀ e ∈ documents, Location.IsFile e.1
  apart : ∀ e ∈ documents, ∀ e' ∈ documents, ¬ (e.1.toList ++ ['/']) <+: e'.1.toList
  distinct : ∀ e ∈ documents, e.2.hasDistinctKeys
  plain : ∀ e ∈ documents, ∀ obj ∈ e.2.markers, IsPlainMarker documents e.1 obj

instance (documents : List (String × Json)) : Decidable (IsLibrary documents) :=
  decidable_of_iff
    ((∀ e ∈ documents, Location.IsFile e.1) ∧
      (∀ e ∈ documents, ∀ e' ∈ documents, ¬ (e.1.toList ++ ['/']) <+: e'.1.toList) ∧
      (∀ e ∈ documents, e.2.hasDistinctKeys) ∧
      ∀ e ∈ documents, ∀ obj ∈ e.2.markers, IsPlainMarker documents e.1 obj)
    ⟨fun h => ⟨h.1, h.2.1, h.2.2.1, h.2.2.2⟩, fun h => ⟨h.file, h.apart, h.distinct, h.plain⟩⟩

theorem IsPlainMarker.isMarker {obj : Json} (h : IsPlainMarker documents location obj) :
    obj.isMarker := by
  obtain ⟨value, -, hvalue, -⟩ := h
  rw [Json.isMarker, hvalue, Option.isSome_some]

theorem IsPlainMarker.exists_reference {obj : Json} (h : IsPlainMarker documents location obj) :
    ∃ value r, obj.marker? = some (.string value) ∧ ModelReference.ofText value = .ok r ∧
      obj.reference? = some r := by
  obtain ⟨value, r, hvalue, hr, -⟩ := h
  refine ⟨value, r, hvalue, hr, ?_⟩
  rw [Json.reference?_of_marker hvalue, hr]
  rfl

/-- The pointer of a plain reference leads to a part with the marker objects of its document. -/
theorem IsPlainMarker.markers_subset {obj source part : Json} {r : ModelReference}
    (h : IsPlainMarker documents location obj) (hr : obj.reference? = some r)
    (hsource : Entries.get? (r.target location) documents = some source)
    (hpart : source.pointer? r.pointer = some part) :
    ∀ inner ∈ part.markers, inner ∈ source.markers := by
  obtain ⟨value, r', hvalue, hr', hclear⟩ := h
  obtain rfl : r' = r := by
    rw [Json.reference?_of_marker hvalue, hr'] at hr
    exact Option.some.inj hr
  obtain ⟨tokens, htokens, hfollow⟩ := Option.bind_eq_some_iff.mp hpart
  exact (hclear source hsource tokens htokens).markers_subset hfollow

theorem IsLibrary.isFile (h : IsLibrary documents) {source : Json}
    (hsource : Entries.get? location documents = some source) : Location.IsFile location :=
  h.file _ (Entries.mem_of_get? hsource)

/-- The directory of a document is no document. -/
theorem IsLibrary.folder_ne (h : IsLibrary documents) {base origin : String} {source : Json}
    (hbase : Location.IsFile base)
    (hdocument : Entries.get? (Location.normalized base) documents = some document)
    (hsource : Entries.get? origin documents = some source) : origin ≠ Location.folder base := by
  rintro rfl
  have hfile : Location.IsFile (Location.folder base) := h.isFile hsource
  have hne : Location.folder base ≠ "" := by
    intro hempty
    rw [hempty] at hfile
    exact absurd hfile (by decide)
  exact h.apart _ (Entries.mem_of_get? hsource) _ (Entries.mem_of_get? hdocument)
    (hbase.folder_isPrefix hne)

/-! ## Fragments of other documents -/

section Run

variable (hlibrary : IsLibrary documents) (hlocation : Location.IsFile location)
include hlibrary hlocation

/-- A marker object that moves from a reached document is plain and expands to the same. -/
theorem rebased_marker {origin : String} {source obj : Json}
    (hreached : Location.Reached location origin)
    (hsource : Entries.get? origin documents = some source) (hobj : obj ∈ source.markers)
    (hfolder : ∀ r, obj.reference? = some r → r.target origin ≠ Location.folder location) :
    IsPlainMarker documents (Location.normalized location) (obj.rebased origin location) ∧
      ∀ depth, expansion? documents depth (Location.normalized location)
        (obj.rebased origin location) = expansion? documents depth origin obj := by
  obtain ⟨value, r, hvalue, hr, hclear⟩ := hlibrary.plain _ (Entries.mem_of_get? hsource) obj hobj
  have hreference : obj.reference? = some r := by
    rw [Json.reference?_of_marker hvalue, hr]
    rfl
  obtain ⟨value', document, hvalue', hr', hresolve⟩ := Json.exists_marker?_rebased hvalue hr
    hlocation (hlibrary.isFile hsource) hreached (hfolder r hreference)
  have htarget : ModelReference.target ⟨some document, r.pointer⟩ (Location.normalized location) =
      r.target origin := (Location.resolve_normalized hlocation document).trans hresolve
  refine ⟨⟨value', _, hvalue', hr', by rwa [htarget]⟩, fun depth => ?_⟩
  refine expansion?_congr ?_ hreference htarget rfl depth
  rw [Json.reference?_of_marker hvalue', hr']
  rfl

/-- A fragment that moves from a reached document has plain marker objects and expands to the
same. -/
theorem moved_fragment {origin : String} {source part : Json}
    (hreached : Location.Reached location origin)
    (hsource : Entries.get? origin documents = some source)
    (hmarkers : ∀ obj ∈ part.markers, obj ∈ source.markers)
    (hfolder : ∀ obj ∈ part.markers, ∀ r, obj.reference? = some r →
      r.target origin ≠ Location.folder location) :
    (∀ obj ∈ (moved origin location part).markers,
      IsPlainMarker documents (Location.normalized location) obj) ∧
      ∀ depth, expand? documents depth (Location.normalized location)
        (moved origin location part) = expand? documents depth origin part := by
  unfold moved
  split_ifs with hsame
  · subst hsame
    rw [hreached.normalized_eq]
    exact ⟨fun obj hobj => hlibrary.plain _ (Entries.mem_of_get? hsource) obj (hmarkers obj hobj),
      fun _ => rfl⟩
  have hrebased := Json.replaceMarkers?_rebased origin location part
  have hmarker (obj : Json) (hobj : obj ∈ part.markers) :=
    rebased_marker hlibrary hlocation hreached hsource (hmarkers obj hobj) (hfolder obj hobj)
  constructor
  · intro obj hobj
    obtain ⟨inner, hinner, moved, hmoved, hobj⟩ :=
      (Json.mem_markers_iff_of_replaceMarkers? hrebased).mp hobj
    obtain rfl := Option.some.inj hmoved
    have hplain := (hmarker inner hinner).1
    rw [Json.markers_of_isMarker hplain.isMarker, List.mem_singleton] at hobj
    rwa [hobj]
  · intro depth
    have hbind := Json.replaceMarkers?_bind (fun obj => some (obj.rebased origin location))
      (expansion? documents depth (Location.normalized location)) part
    rw [hrebased, Option.bind_some] at hbind
    rw [expand?_eq, hbind, expand?_eq]
    refine Json.replaceMarkers?_congr fun obj hobj => ?_
    obtain ⟨hplain, hexpansion⟩ := hmarker obj hobj
    rw [Option.bind_some, Json.replaceMarkers?_of_isMarker hplain.isMarker, hexpansion]

/-! ## Passes -/

/-- No reference in the fragment that an object refers to names the directory of the inlined
document. -/
def AvoidsFolder (documents : List (String × Json)) (location : String) (obj : Json) : Prop :=
  ∀ r, obj.reference? = some r →
    ∀ source, Entries.get? (r.target (Location.normalized location)) documents = some source →
      ∀ part, source.pointer? r.pointer = some part → ∀ inner ∈ part.markers,
        ∀ r', inner.reference? = some r' →
          r'.target (r.target (Location.normalized location)) ≠ Location.folder location

/-- A fragment of another document is plain and expands to what the reference expands to. -/
theorem fragment_of_some {current obj : Json} {target pointer : String}
    (hplain : IsPlainMarker documents (Location.normalized location) obj)
    (hr : obj.reference? = some ⟨some target, pointer⟩)
    (havoids : AvoidsFolder documents location obj) :
    (∀ part, replacement? documents true location current obj = some part →
      ∀ inner ∈ part.markers, IsPlainMarker documents (Location.normalized location) inner) ∧
      ∀ depth, (replacement? documents true location current obj).bind
          (expand? documents depth (Location.normalized location)) =
        expansion? documents (depth + 1) (Location.normalized location) obj := by
  have htarget : ModelReference.target ⟨some target, pointer⟩ (Location.normalized location) =
      Location.resolve location target := Location.resolve_normalized hlocation target
  have hmoved (source part : Json)
      (hsource : Entries.get? (Location.resolve location target) documents = some source)
      (hpart : source.pointer? pointer = some part) :=
    have hreached : Location.Reached location (Location.resolve location target) := by
      obtain ⟨value, r, -, hvalue, hr'⟩ := hplain.exists_reference
      rw [hr, Option.some.injEq] at hr'
      subst hr'
      exact ModelReference.reached_of_isFile hlocation hvalue (hlibrary.isFile hsource)
    moved_fragment hlibrary hlocation hreached hsource
      (hplain.markers_subset hr (by rwa [htarget]) hpart)
      (by simpa only [htarget] using havoids _ hr source (by rwa [htarget]) part hpart)
  rw [replacement?_of_some hr]
  constructor
  · intro part hsome
    obtain ⟨source, hsource, hsome⟩ := Option.bind_eq_some_iff.mp hsome
    obtain ⟨fragment, hfragment, rfl⟩ := Option.map_eq_some_iff.mp hsome
    exact (hmoved source fragment hsource hfragment).1
  · intro depth
    simp only [expansion?, hr, htarget, Option.bind_some, Option.bind_assoc, Option.bind_map]
    refine Option.bind_congr fun source hsource => Option.bind_congr fun part hpart => ?_
    exact (hmoved source part hsource hpart).2 depth

/-- What expands refers to no directory. -/
theorem avoidsFolder_of_expansion?
    (hdocument : Entries.get? (Location.normalized location) documents = some document)
    {depth : Nat} {obj k : Json}
    (h : expansion? documents (depth + 1) (Location.normalized location) obj = some k) :
    AvoidsFolder documents location obj := by
  intro r hr source hsource part hpart inner hinner r' hr'
  simp only [expansion?, hr, hsource, hpart, Option.bind_some] at h
  rw [expand?_eq] at h
  have hsome := Json.isSome_of_replaceMarkers? h hinner
  cases depth with
  | zero => cases hsome
  | succ depth =>
    obtain ⟨z, hz⟩ := Option.isSome_iff_exists.mp hsome
    rw [expansion?, hr', Option.bind_some] at hz
    obtain ⟨source', hsource', -⟩ := Option.bind_eq_some_iff.mp hz
    exact hlibrary.folder_ne hlocation hdocument hsource'

end Run

/-- A document on the way: the original with every outermost marker object replaced as `g` says,
so that all marker objects are plain. -/
structure Stage (documents : List (String × Json)) (location : String) (document current : Json)
    (g : Json → Option Json) : Prop where
  replaced : document.replaceMarkers? g = some current
  plain : ∀ obj ∈ current.markers, IsPlainMarker documents (Location.normalized location) obj

/-- A pass after the replacement `g`. -/
def afterPass (documents : List (String × Json)) (location : String) (current : Json)
    (g : Json → Option Json) (obj : Json) : Option Json :=
  (g obj).bind (Json.replaceMarkers? (replacement? documents true location current))

/-- What a replacement expands to, its object expands to, some levels deeper. -/
def ExpandsBack (documents : List (String × Json)) (location : String) (document : Json)
    (g : Json → Option Json) (more : Nat) : Prop :=
  ∀ obj ∈ document.markers, ∀ depth k,
    (g obj).bind (expand? documents depth (Location.normalized location)) = some k →
      expansion? documents (depth + more) (Location.normalized location) obj = some k

/-- What an object expands to, its replacement expands to. -/
def ExpandsOn (documents : List (String × Json)) (location : String) (document : Json)
    (g : Json → Option Json) : Prop :=
  ∀ obj ∈ document.markers, ∀ depth k,
    expansion? documents depth (Location.normalized location) obj = some k →
      (g obj).bind (expand? documents depth (Location.normalized location)) = some k

namespace Stage

variable {current changed : Json} {g : Json → Option Json}

theorem start
    (hplain : ∀ obj ∈ document.markers,
      IsPlainMarker documents (Location.normalized location) obj) :
    Stage documents location document document some ∧
      ExpandsBack documents location document some 0 ∧
      ExpandsOn documents location document some := by
  refine ⟨⟨Json.replaceMarkers?_some document, hplain⟩, fun obj hobj depth k h => ?_,
    fun obj hobj depth k h => ?_⟩
  · rwa [Option.bind_some, expand?_of_isMarker (hplain obj hobj).isMarker] at h
  · rwa [Option.bind_some, expand?_of_isMarker (hplain obj hobj).isMarker]

variable (hstage : Stage documents location document current g)
include hstage

theorem mem_markers {obj inner part : Json} (hobj : obj ∈ document.markers)
    (hpart : g obj = some part) (hinner : inner ∈ part.markers) : inner ∈ current.markers :=
  (Json.mem_markers_iff_of_replaceMarkers? hstage.replaced).mpr ⟨obj, hobj, part, hpart, hinner⟩

section Local

variable (hdocument : Entries.get? (Location.normalized location) documents = some document)
  {obj : Json} (hobj : obj ∈ current.markers) {pointer : String}
  (hr : obj.reference? = some ⟨none, pointer⟩)
include hdocument hobj hr

/-- A reference to the document at hand finds the replaced part of the original. -/
theorem pointer?_eq :
    current.pointer? pointer = (document.pointer? pointer).bind (Json.replaceMarkers? g) := by
  obtain ⟨value, r, hvalue, hvalue', hclear⟩ := hstage.plain obj hobj
  rw [Json.reference?_of_marker hvalue, hvalue'] at hr
  obtain rfl := Option.some.inj hr
  rw [Json.pointer?, Json.pointer?, Option.bind_assoc]
  refine Option.bind_congr fun tokens htokens => ?_
  exact (hclear document hdocument tokens htokens).follow? hstage.replaced

theorem markers_subset {part : Json} (hpart : document.pointer? pointer = some part) :
    ∀ inner ∈ part.markers, inner ∈ document.markers :=
  (hstage.plain obj hobj).markers_subset hr hdocument hpart

end Local

section Pass

variable (hlibrary : IsLibrary documents) (hlocation : Location.IsFile location)
  (hdocument : Entries.get? (Location.normalized location) documents = some document)
include hlibrary hlocation hdocument

/-- A pass leaves plain marker objects, unless a fragment refers to the directory. -/
theorem afterPass (havoids : ∀ obj ∈ current.markers, AvoidsFolder documents location obj)
    (hpass : current.replaceMarkers? (replacement? documents true location current) =
      some changed) :
    Stage documents location document changed (afterPass documents location current g) := by
  constructor
  · rw [← hpass, ← Option.bind_some current (Json.replaceMarkers? _), ← hstage.replaced,
      Json.replaceMarkers?_bind]
    rfl
  intro inner hinner
  obtain ⟨obj, hobj, part, hpart, hinner⟩ :=
    (Json.mem_markers_iff_of_replaceMarkers? hpass).mp hinner
  have hplain := hstage.plain obj hobj
  obtain ⟨-, ⟨document?, pointer⟩, -, -, hr⟩ := hplain.exists_reference
  cases document? with
  | some target =>
    obtain ⟨hfragment, -⟩ := fragment_of_some hlibrary hlocation hplain hr (havoids obj hobj)
    exact hfragment part hpart inner hinner
  | none =>
    rw [replacement?_of_none hr, hstage.pointer?_eq hdocument hobj hr] at hpart
    obtain ⟨original, horiginal, hpart⟩ := Option.bind_eq_some_iff.mp hpart
    obtain ⟨outer, houter, part', hpart', hinner⟩ :=
      (Json.mem_markers_iff_of_replaceMarkers? hpart).mp hinner
    exact hstage.plain inner (hstage.mem_markers
      (hstage.markers_subset hdocument hobj hr horiginal outer houter) hpart' hinner)

/-- What comes in the place of a marker object expands to what the object expands to. -/
theorem expandsBack_marker {more : Nat} (hback : ExpandsBack documents location document g more)
    {obj : Json} (hobj : obj ∈ current.markers) (havoids : AvoidsFolder documents location obj)
    {depth : Nat} {k : Json}
    (h : (replacement? documents true location current obj).bind
      (expand? documents depth (Location.normalized location)) = some k) :
    expansion? documents (depth + 1 + more) (Location.normalized location) obj = some k := by
  have hplain := hstage.plain obj hobj
  obtain ⟨-, ⟨document?, pointer⟩, -, -, hr⟩ := hplain.exists_reference
  cases document? with
  | some target =>
    rw [(fragment_of_some hlibrary hlocation hplain hr havoids).2] at h
    exact expansion?_add hplain.isMarker h more
  | none =>
    rw [replacement?_of_none hr, hstage.pointer?_eq hdocument hobj hr, Option.bind_assoc] at h
    obtain ⟨part, hpart, h⟩ := Option.bind_eq_some_iff.mp h
    simp only [expand?_eq] at h
    rw [Json.replaceMarkers?_bind] at h
    have hexpand : expand? documents (depth + more) (Location.normalized location) part =
        some k := by
      rw [expand?_eq]
      refine Json.replaceMarkers?_mono (fun inner hinner z hz => ?_) h
      refine hback inner (hstage.markers_subset hdocument hobj hr hpart inner hinner) depth z ?_
      simpa only [expand?_eq] using hz
    have hdepth : depth + 1 + more = depth + more + 1 := by omega
    rw [hdepth]
    simp only [expansion?, hr, Option.bind_some, ModelReference.target, hdocument, hpart]
    exact hexpand

theorem expandsOn_marker (hon : ExpandsOn documents location document g)
    {obj : Json} (hobj : obj ∈ current.markers) {depth : Nat} {k : Json}
    (h : expansion? documents (depth + 1) (Location.normalized location) obj = some k) :
    (replacement? documents true location current obj).bind
      (expand? documents depth (Location.normalized location)) = some k := by
  have hplain := hstage.plain obj hobj
  obtain ⟨-, ⟨document?, pointer⟩, -, -, hr⟩ := hplain.exists_reference
  cases document? with
  | some target =>
    have havoids := avoidsFolder_of_expansion? hlibrary hlocation hdocument h
    rwa [(fragment_of_some hlibrary hlocation hplain hr havoids).2]
  | none =>
    simp only [expansion?, hr, Option.bind_some, ModelReference.target, hdocument] at h
    obtain ⟨part, hpart, h⟩ := Option.bind_eq_some_iff.mp h
    rw [replacement?_of_none hr, hstage.pointer?_eq hdocument hobj hr, hpart, Option.bind_some]
    simp only [expand?_eq] at h ⊢
    rw [Json.replaceMarkers?_bind]
    refine Json.replaceMarkers?_mono (fun inner hinner z hz => ?_) h
    have hbind := hon inner (hstage.markers_subset hdocument hobj hr hpart inner hinner) depth z hz
    simpa only [expand?_eq] using hbind

theorem expandsBack_afterPass {more : Nat}
    (hback : ExpandsBack documents location document g more)
    (havoids : ∀ obj ∈ current.markers, AvoidsFolder documents location obj) :
    ExpandsBack documents location document (Reference.afterPass documents location current g)
      (more + 1 + more) := by
  intro obj hobj depth k h
  obtain ⟨changed, hchanged, h⟩ := Option.bind_eq_some_iff.mp h
  obtain ⟨part, hpart, hchanged⟩ := Option.bind_eq_some_iff.mp hchanged
  have hexpand : expand? documents (depth + 1 + more) (Location.normalized location) part =
      some k := by
    have hbind := Json.replaceMarkers?_bind (replacement? documents true location current)
      (expansion? documents depth (Location.normalized location)) part
    rw [hchanged, Option.bind_some, ← expand?_eq, h] at hbind
    rw [expand?_eq]
    refine Json.replaceMarkers?_mono (fun inner hinner z hz => ?_) hbind.symm
    have hmem := hstage.mem_markers hobj hpart hinner
    refine hstage.expandsBack_marker hlibrary hlocation hdocument hback hmem (havoids inner hmem) ?_
    simpa only [expand?_eq] using hz
  have hdepth : depth + (more + 1 + more) = depth + 1 + more + more := by omega
  rw [hdepth]
  refine hback obj hobj (depth + 1 + more) k ?_
  rw [hpart, Option.bind_some, hexpand]

theorem expandsOn_afterPass (hon : ExpandsOn documents location document g) :
    ExpandsOn documents location document (Reference.afterPass documents location current g) := by
  intro obj hobj depth k h
  obtain ⟨part, hpart, hexpand⟩ := Option.bind_eq_some_iff.mp (hon obj hobj depth k h)
  rw [Reference.afterPass, hpart, Option.bind_some]
  simp only [expand?_eq] at hexpand ⊢
  rw [Json.replaceMarkers?_bind]
  refine Json.replaceMarkers?_mono (fun inner hinner z hz => ?_) hexpand
  cases depth with
  | zero => cases hz
  | succ depth =>
    have hmarker := hstage.expandsOn_marker hlibrary hlocation hdocument hon
      (hstage.mem_markers hobj hpart hinner) hz
    obtain ⟨fragment, hfragment, hmarker⟩ := Option.bind_eq_some_iff.mp hmarker
    rw [hfragment, Option.bind_some, ← expand?_eq]
    exact expand?_succ hmarker

/-- What a run returns is an expansion, if no reference names the directory of the document. -/
theorem exists_expand?_of_passes?
    (hfolder : ∀ e ∈ documents, ∀ obj ∈ e.2.markers, ∀ r, obj.reference? = some r →
      r.target e.1 ≠ Location.folder location)
    {more : Nat} (hback : ExpandsBack documents location document g more) {remaining : Nat}
    {result : Json} (h : passes? documents true location remaining current = some result) :
    ∃ depth, expand? documents depth (Location.normalized location) document = some result := by
  induction remaining generalizing current g more with
  | zero =>
    obtain ⟨hnil, rfl⟩ := Json.replaceMarkers?_none_eq_some_iff.mp h
    refine ⟨more, ?_⟩
    rw [expand?_eq]
    refine Json.replaceMarkers?_mono (fun obj hobj part hpart => ?_) hstage.replaced
    have hpartNil : part.markers = [] := List.eq_nil_iff_forall_not_mem.mpr fun inner hinner => by
      have hmem := hstage.mem_markers hobj hpart hinner
      simp [hnil] at hmem
    have hexpansion := hback obj hobj 0 part
    rw [Nat.zero_add, hpart, Option.bind_some, expand?,
      Json.replaceMarkers?_of_markers_eq_nil hpartNil] at hexpansion
    exact hexpansion rfl
  | succ remaining ih =>
    obtain ⟨changed, hpass, h⟩ := Option.bind_eq_some_iff.mp h
    have havoids : ∀ obj ∈ current.markers, AvoidsFolder documents location obj := by
      intro obj hobj r hr source hsource part hpart inner hinner r' hr'
      have hmem := (hstage.plain obj hobj).markers_subset hr hsource hpart inner hinner
      exact hfolder _ (Entries.mem_of_get? hsource) inner hmem r' hr'
    exact ih (hstage.afterPass hlibrary hlocation hdocument havoids hpass)
      (hstage.expandsBack_afterPass hlibrary hlocation hdocument hback havoids) h

/-- As many passes as references are nested are enough. -/
theorem passes?_of_expand? (hon : ExpandsOn documents location document g) {remaining : Nat}
    {result : Json}
    (h : expand? documents remaining (Location.normalized location) current = some result) :
    passes? documents true location remaining current = some result := by
  induction remaining generalizing current g with
  | zero => exact h
  | succ remaining ih =>
    rw [expand?_eq] at h
    have havoids : ∀ obj ∈ current.markers, AvoidsFolder documents location obj := by
      intro obj hobj
      obtain ⟨k, hk⟩ := Option.isSome_iff_exists.mp (Json.isSome_of_replaceMarkers? h hobj)
      exact avoidsFolder_of_expansion? hlibrary hlocation hdocument hk
    have hboth := Json.replaceMarkers?_mono (g := fun obj =>
      (replacement? documents true location current obj).bind (Json.replaceMarkers?
        (expansion? documents remaining (Location.normalized location)))) (fun obj hobj k hk => by
          have hmarker := hstage.expandsOn_marker hlibrary hlocation hdocument hon hobj hk
          simpa only [expand?_eq] using hmarker) h
    rw [← Json.replaceMarkers?_bind] at hboth
    obtain ⟨changed, hpass, hboth⟩ := Option.bind_eq_some_iff.mp hboth
    rw [passes?, hpass, Option.bind_some]
    rw [← expand?_eq] at hboth
    exact ih (hstage.afterPass hlibrary hlocation hdocument havoids hpass)
      (hstage.expandsOn_afterPass hlibrary hlocation hdocument hon) hboth

end Pass

end Stage

end Reference

/-- Strict inlining is expansion. What it returns is the expansion of the document, unless some
reference names the directory that the document is in; and it returns the expansion whenever all
references resolve and are nested no deeper than the limit on passes. -/
theorem inlined_strict {documents : List (String × Json)} {cache : DocumentCache}
    {settings : InliningSettings} {location : String} {document : Json}
    (hlibrary : Reference.IsLibrary documents) (hlocation : Location.IsFile location)
    (hdocument : Entries.get? (Location.normalized location) documents = some document)
    (hcache : IsCacheOf documents cache) (hstrict : settings.strict = true) :
    ((∀ e ∈ documents, ∀ obj ∈ e.2.markers, ∀ r ∈ obj.reference?,
        r.target e.1 ≠ Location.folder location) →
      ∀ result, inlined documents cache settings location document = .ok result →
        ∃ depth, Reference.expand? documents depth (Location.normalized location) document =
          some result) ∧
      ∀ result, Reference.expand? documents settings.maxPasses (Location.normalized location)
          document = some result →
        inlined documents cache settings location document = .ok result := by
  have hmem := Entries.mem_of_get? hdocument
  have hplain : ∀ obj ∈ document.markers,
      Reference.IsPlainMarker documents (Location.normalized location) obj :=
    hlibrary.plain (Location.normalized location, document) hmem
  have hdistinct : document.hasDistinctKeys :=
    hlibrary.distinct (Location.normalized location, document) hmem
  obtain ⟨hstage, hback, hon⟩ := Reference.Stage.start hplain
  have hpasses := toOption_inlined hlibrary.distinct hcache settings location hdistinct
  rw [hstrict] at hpasses
  constructor
  · intro hfolder result hresult
    rw [hresult] at hpasses
    exact hstage.exists_expand?_of_passes? hlibrary hlocation hdocument hfolder hback hpasses.symm
  · intro result hexpand
    rw [hstage.passes?_of_expand? hlibrary hlocation hdocument hon hexpand] at hpasses
    exact eq_ok_of_toOption hpasses

/-- A document with references to a nested one, directly and through another reference of its
own. -/
def dimmerDocument : Json :=
  .object [("level", .object [("tm:ref", .string "lib/units.json#/light")]),
    ("shown", .object [("tm:ref", .string "#/level")])]

def dimmerDocuments : List (String × Json) :=
  [("dimmer.json", dimmerDocument),
    ("lib/units.json", .object [
      ("light", .object [("unit", .object [("tm:ref", .string "#/lumen")])]),
      ("lumen", .string "lm")])]

/-- The document with both references expanded. -/
def dimmerExpanded : Json :=
  .object [("level", .object [("unit", .string "lm")]), ("shown", .object [("unit", .string "lm")])]

theorem inlined_strict_dimmer :
    inlined dimmerDocuments ∅ { strict := true, maxPasses := 3 } "dimmer.json" dimmerDocument =
        .ok dimmerExpanded ∧
      ∃ depth, Reference.expand? dimmerDocuments depth (Location.normalized "dimmer.json")
        dimmerDocument = some dimmerExpanded := by
  have hstrict := @inlined_strict dimmerDocuments ∅ { strict := true, maxPasses := 3 }
    "dimmer.json" dimmerDocument (by decide +kernel) (by decide) rfl (isCacheOf_empty _) rfl
  have hexpand : Reference.expand? dimmerDocuments 3 (Location.normalized "dimmer.json")
      dimmerDocument = some dimmerExpanded :=
    Option.map_injective Json.compact_injective (by decide +kernel)
  have hresult := hstrict.2 dimmerExpanded hexpand
  exact ⟨hresult, hstrict.1 (by decide +kernel) dimmerExpanded hresult⟩

end ThingTypes
