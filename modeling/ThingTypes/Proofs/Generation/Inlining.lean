import ThingTypes.Proofs.Generation.Results
import ThingTypes.Proofs.Json.Parts
import ThingTypes.Reference.Inlining

/-
  Kinds of values that inlining keeps. A document with its references inlined is put together from
  parts of the documents that are loaded, moved to where they are put. So it is of a kind as soon as
  the loaded documents are, if the kind is kept by taking a part, by putting one in a place, by
  dropping a marker and by moving (`InliningRule`).
-/

namespace ThingTypes

/-- The documents that are stored are of a kind that inlining into the document at `base` keeps. -/
structure InliningRule (base : String) (Stored Kind : Json → Prop) : Prop where
  stored : ∀ {j}, Stored j → Kind j
  part : ∀ {j part}, Kind j → part ∈ j.parts → Kind part
  putStep : ∀ {j inner part} {token : String}, j.step? token = some inner → Kind j → Kind part →
    Kind (Json.putStep token part j)
  withoutMarker : ∀ {j}, Kind j → Kind j.withoutMarker
  rebased : ∀ {document : Json} {site : ReferenceSite} {r : ModelReference} {href : String}
    {fragment : Json}, Kind document → site ∈ document.referenceSites →
    ModelReference.ofText site.reference = .ok r → r.document? = some href → Kind fragment →
    Kind (fragment.rebased (Location.resolve base href) base)

/-- All documents that are loaded are of a kind. -/
def Loader.Serves {m : Type → Type} [Monad m] (Stored : Json → Prop) (load : Loader m) : Prop :=
  ∀ location, Yields (fun result => ∀ document, result = .ok document → Stored document)
    (load location)

/-- All documents that are kept are of a kind. -/
def DocumentCache.Keeps (Stored : Json → Prop) (cache : DocumentCache) : Prop :=
  ∀ e ∈ cache.entries, Stored e.2

variable {base : String} {Stored Kind : Json → Prop} {m : Type → Type} [Monad m] [LawfulMonad m]

theorem Loader.serves_ofDocuments {documents : List (String × Json)}
    (h : ∀ e ∈ documents, Stored e.2) :
    (Loader.ofDocuments documents : Loader m).Serves Stored := by
  refine fun location => .pure fun document hdocument => ?_
  split at hdocument
  · rename_i hfound
    cases hdocument
    exact h _ (Entries.mem_of_get? hfound)
  · cases hdocument

/-! ## Loading -/

namespace Reference

open InlineM (Maintains)

variable {load : Loader m} (hload : load.Serves Stored)
include hload

theorem maintains_loadDocument (location : String) :
    Maintains (DocumentCache.Keeps Stored) Stored (loadDocument load location) := by
  unfold loadDocument
  refine (Maintains.lift (hload location)).bind ?_
  rintro (fault | document) hdocument
  · exact .throw _
  · exact .pure (hdocument document rfl)

theorem maintains_cachedDocument (location : String) :
    Maintains (DocumentCache.Keeps Stored) Stored (cachedDocument load location) := by
  unfold cachedDocument
  refine Maintains.get.bind fun cache hcache => ?_
  cases hkept : cache.get? location with
  | some document => exact .pure (hcache _ ((cache.mem_entries_iff _ _).mpr hkept))
  | none =>
    refine (maintains_loadDocument hload location).bind fun document hdocument => ?_
    refine (Maintains.of_modify fun cache hcache e he => ?_).bind fun _ _ => .pure hdocument
    rcases Entries.mem_of_mem_insert he with rfl | he
    · exact hdocument
    · exact hcache e he

end Reference

/-! ## Inlining -/

namespace InliningRule

open InlineM (Maintains)

variable (rule : InliningRule base Stored Kind)

section Values

include rule

theorem of_follow? {j part : Json} {tokens : List String} (hj : Kind j)
    (h : j.follow? tokens = some part) : Kind part := by
  induction tokens generalizing j with
  | nil =>
    cases h
    exact hj
  | cons token tokens ih =>
    obtain ⟨inner, hstep, h⟩ := Option.bind_eq_some_iff.mp h
    exact ih (rule.part hj (Json.mem_parts_of_step? hstep)) h

theorem of_putAt? {j part changed : Json} {tokens : List String} (hj : Kind j) (hpart : Kind part)
    (h : Json.putAt? part j tokens = some changed) : Kind changed := by
  induction tokens generalizing j changed with
  | nil =>
    cases h
    exact hpart
  | cons token tokens ih =>
    obtain ⟨inner, hstep, h⟩ := Option.bind_eq_some_iff.mp h
    obtain ⟨inner', hinner, h⟩ := Option.bind_eq_some_iff.mp h
    cases h
    exact rule.putStep hstep hj (ih (rule.part hj (Json.mem_parts_of_step? hstep)) hinner)

theorem of_pointer? {j part : Json} {pointer : String} (hj : Kind j)
    (h : j.pointer? pointer = some part) : Kind part := by
  obtain ⟨tokens, -, h⟩ := Option.bind_eq_some_iff.mp h
  exact rule.of_follow? hj h

theorem of_splice {strict : Bool} {document changed : Json} {site : ReferenceSite}
    {fragment? : Option Json} (hdocument : Kind document)
    (hfragment : ∀ fragment ∈ fragment?, Kind fragment)
    (h : Reference.splice strict base document site fragment? = .ok changed) : Kind changed := by
  have hreplace {part : Json} (hpart : Kind part)
      (hchanged : document.replace? site.parentPath part = some changed) : Kind changed := by
    obtain ⟨tokens, -, hput⟩ := Option.bind_eq_some_iff.mp hchanged
    exact rule.of_putAt? hdocument hpart hput
  unfold Reference.splice at h
  cases htarget : document.pointer? site.parentPath with
  | none =>
    rw [htarget] at h
    cases h
  | some target =>
    have hwithout := rule.withoutMarker (rule.of_pointer? hdocument htarget)
    cases fragment? <;> cases strict <;>
      simp only [htarget, if_true, Bool.false_eq_true, if_false, pure, Except.pure, bind,
        Except.bind] at h
    case none.true => cases h
    case none.false =>
      split at h <;> cases h
      exact hreplace hwithout ‹_›
    all_goals
      split at h <;> cases h
      exact hreplace (hfragment _ rfl) ‹_›

theorem of_spliceAll {strict : Bool} {fragments : List (ReferenceSite × Option Json)}
    (hfragments : ∀ e ∈ fragments, ∀ fragment ∈ e.2, Kind fragment) :
    ∀ {document changed : Json}, Kind document →
      Reference.spliceAll strict base document fragments = .ok changed → Kind changed := by
  induction fragments with
  | nil =>
    intro document changed hdocument h
    cases h
    exact hdocument
  | cons e rest ih =>
    intro document changed hdocument h
    obtain ⟨hfirst, hrest⟩ := List.forall_mem_cons.mp hfragments
    rw [Reference.spliceAll] at h
    split at h
    · rename_i next hnext
      exact ih hrest (rule.of_splice hdocument hfirst hnext) h
    · cases h

end Values

variable {load : Loader m} (hload : load.Serves Stored)
include rule hload

theorem maintains_fetch {document : Json} (hdocument : Kind document) {site : ReferenceSite}
    (hsite : site ∈ document.referenceSites) {r : ModelReference}
    (hr : ModelReference.ofText site.reference = .ok r) :
    Maintains (DocumentCache.Keeps Stored)
      (fun fragment? : Option Json => ∀ fragment ∈ fragment?, Kind fragment)
      (Reference.fetch load base document r) := by
  unfold Reference.fetch
  split
  · exact .pure fun fragment hmem => rule.of_pointer? hdocument hmem
  · rename_i href hhref
    refine (Reference.maintains_cachedDocument hload _).bind fun source hsource => .pure ?_
    have hkind := rule.stored hsource
    intro fragment hmem
    split at hmem
    · exact rule.of_pointer? hkind hmem
    · obtain ⟨part, hpart, rfl⟩ := Option.map_eq_some_iff.mp hmem
      exact rule.rebased hdocument hsite hr hhref (rule.of_pointer? hkind hpart)

theorem maintains_fetchAll {document : Json} (hdocument : Kind document)
    {sites : List ReferenceSite} (hsites : sites ⊆ document.referenceSites) :
    Maintains (DocumentCache.Keeps Stored)
      (fun fragments : List (ReferenceSite × Option Json) =>
        ∀ e ∈ fragments, ∀ fragment ∈ e.2, Kind fragment)
      (Reference.fetchAll load base document sites) := by
  induction sites with
  | nil => exact .pure nofun
  | cons site rest ih =>
    obtain ⟨hsite, hrest⟩ := List.cons_subset.mp hsites
    refine (Maintains.liftExcept fun _ => id).bind fun r hr => ?_
    refine (rule.maintains_fetch hload hdocument hsite hr).bind fun fragment? hfragment => ?_
    refine (ih hrest).bind fun others hothers => .pure ?_
    exact List.forall_mem_cons.mpr ⟨hfragment, hothers⟩

theorem maintains_inlinePasses (settings : InliningSettings) (remaining : Nat) :
    ∀ {document : Json}, Kind document →
      Maintains (DocumentCache.Keeps Stored) Kind
        (Reference.inlinePasses load settings base remaining document) := by
  induction remaining with
  | zero =>
    intro document hdocument
    unfold Reference.inlinePasses
    split
    · exact .pure hdocument
    · exact .throw _
  | succ remaining ih =>
    intro document hdocument
    unfold Reference.inlinePasses
    split
    · exact .pure hdocument
    · rename_i first rest hsites
      refine (rule.maintains_fetchAll hload hdocument (hsites ▸ List.Subset.refl _)).bind
        fun fragments hfragments => ?_
      refine (Maintains.liftExcept fun changed hchanged =>
        rule.of_spliceAll hfragments hdocument hchanged).bind fun changed hchanged => ?_
      exact ih hchanged

/-- A model is read from a document of the kind, inlined at its own location. -/
theorem maintains_loadSingle (o : GenerationOptions) :
    Maintains (DocumentCache.Keeps Stored)
      (fun model => ∃ document, Kind document ∧ ThingModel.ofDocument document base = .ok model)
      (Loading.loadSingle load o base) := by
  unfold Loading.loadSingle
  refine (Reference.maintains_loadDocument hload base).bind fun document hdocument => ?_
  refine (rule.maintains_inlinePasses hload _ _ (rule.stored hdocument)).bind
    fun inlined hinlined => ?_
  exact .liftExcept fun model hmodel => ⟨inlined, hinlined, hmodel⟩

end InliningRule

end ThingTypes
