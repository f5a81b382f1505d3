import Mathlib.Data.List.Chain
import ThingTypes.Generation.Loading
import ThingTypes.Proofs.OrderedMap
import ThingTypes.Proofs.Reference.Passes

/-
  A model extends a base, which may extend another one. Bases are merged one at a time from the
  model on, each underneath what has been merged so far; what comes out is stated here for the chain
  as a whole. A chain that is too long, or that never ends, is an error.
-/

namespace ThingTypes

/-! ## Merging -/

/-- A model with the location of its document. -/
abbrev LocatedModel := String × ThingModel

/-- What a list of models, each underneath the one before it, is merged to. -/
structure IsMerged (chain : List LocatedModel) (merged : ThingModel) : Prop where
  title : merged.title? = chain.findSome? (·.2.title?)
  description : merged.description? = chain.findSome? (·.2.description?)
  property : ∀ name,
    merged.properties.get? name = chain.findSome? (·.2.properties.get? name)
  propertyNames :
    merged.properties.keys = (chain.reverse.flatMap (·.2.properties.keys)).eraseDups
  action : ∀ name, merged.actions.get? name = chain.findSome? (·.2.actions.get? name)
  actionNames : merged.actions.keys = (chain.reverse.flatMap (·.2.actions.keys)).eraseDups
  optional : ∀ pointer, pointer ∈ merged.optional ↔ ∃ e ∈ chain, pointer ∈ e.2.optional
  /-- Links but those to bases are kept, each with the document that declared it. -/
  links : merged.links = chain.reverse.flatMap fun e =>
    (e.2.links.filter (·.kind ≠ .extends)).map fun l => { l with origin? := some e.1 }

/-- The model as it is once its base is merged. -/
def ThingModel.withoutBaseLinks (m : ThingModel) : ThingModel :=
  { m with links := m.links.filter (·.kind ≠ .extends) }

theorem mem_foldl_optional {pointer : String} (added optional : List String) :
    pointer ∈ added.foldl (fun optional pointer =>
        if optional.contains pointer then optional else optional ++ [pointer]) optional ↔
      pointer ∈ optional ∨ pointer ∈ added := by
  induction added generalizing optional with
  | nil => simp
  | cons first added ih =>
    rw [List.foldl_cons, ih]
    split
    · rename_i hmem
      have hfirst : first ∈ optional := by simpa using hmem
      constructor
      · rintro (h | h) <;> simp [h]
      · rintro (h | h)
        · exact .inl h
        · rcases List.mem_cons.mp h with rfl | h
          · exact .inl hfirst
          · exact .inr h
    · simp [or_assoc]

/-- What is below takes what is not defined above, in front. -/
theorem OrderedMap.get?_underneath {α : Type} (m base : OrderedMap String α) (name : String) :
    (base.insertAll m.entries).get? name = (m.get? name).or (base.get? name) :=
  base.get?_insertAll m.nodup name

theorem OrderedMap.keys_underneath {α : Type} (m base : OrderedMap String α) {names : List String}
    (h : m.keys = names.eraseDups) :
    (base.insertAll m.entries).keys = (base.keys ++ names).eraseDups := by
  have hbase : base.keys.Nodup := base.nodup
  rw [base.keys_insertAll m.nodup, eraseDups_append_of_nodup hbase, ← h]
  rfl

/-- All links have been declared in the document at the location. -/
def DeclaresLinks (e : LocatedModel) : Prop :=
  ∀ l ∈ e.2.links, l.origin? = some e.1

theorem DeclaresLinks.map_filter {e : LocatedModel} (h : DeclaresLinks e) (p : Link → Bool) :
    (e.2.links.filter p).map (fun l => { l with origin? := some e.1 }) = e.2.links.filter p := by
  have hid : ∀ l ∈ e.2.links.filter p, { l with origin? := some e.1 } = l := fun l hl => by
    rw [← h l (List.mem_of_mem_filter hl)]
  rw [List.map_congr_left hid, List.map_id']

theorem IsMerged.single {e : LocatedModel} (h : DeclaresLinks e) :
    IsMerged [e] e.2.withoutBaseLinks where
  title := List.findSome?_singleton.symm
  description := List.findSome?_singleton.symm
  property _ := List.findSome?_singleton.symm
  propertyNames := by simp [eraseDups_of_nodup e.2.properties.nodup, ThingModel.withoutBaseLinks,
    OrderedMap.keys]
  action _ := List.findSome?_singleton.symm
  actionNames := by simp [eraseDups_of_nodup e.2.actions.nodup, ThingModel.withoutBaseLinks,
    OrderedMap.keys]
  optional pointer := by simp [ThingModel.withoutBaseLinks]
  links := by simp only [List.reverse_singleton, List.flatMap_singleton, h.map_filter]; rfl

theorem findSome?_concat {α β : Type} (f : α → Option β) (l : List α) (a : α) :
    (l ++ [a]).findSome? f = (l.findSome? f).or (f a) := by
  rw [List.findSome?_append, List.findSome?_singleton]

theorem flatMap_reverse_concat {α β : Type} (f : α → List β) (l : List α) (a : α) :
    (l ++ [a]).reverse.flatMap f = f a ++ l.reverse.flatMap f := by
  rw [List.reverse_append, List.reverse_singleton, List.singleton_append, List.flatMap_cons]

/-- One base more goes underneath. -/
theorem IsMerged.mergeBase {chain : List LocatedModel} {merged : ThingModel}
    (h : IsMerged chain merged.withoutBaseLinks) {e : LocatedModel} (he : DeclaresLinks e) :
    IsMerged (chain ++ [e]) (merged.mergeBase e.2).withoutBaseLinks where
  title := by
    rw [findSome?_concat, ← h.title]
    rfl
  description := by
    rw [findSome?_concat, ← h.description]
    rfl
  property name := by
    rw [findSome?_concat, ← h.property]
    exact OrderedMap.get?_underneath _ _ name
  propertyNames := by
    rw [flatMap_reverse_concat]
    exact OrderedMap.keys_underneath _ _ h.propertyNames
  action name := by
    rw [findSome?_concat, ← h.action]
    exact OrderedMap.get?_underneath _ _ name
  actionNames := by
    rw [flatMap_reverse_concat]
    exact OrderedMap.keys_underneath _ _ h.actionNames
  optional pointer := by
    have hmerged : pointer ∈ merged.optional ↔ ∃ e ∈ chain, pointer ∈ e.2.optional :=
      h.optional pointer
    rw [ThingModel.withoutBaseLinks, ThingModel.mergeBase, mem_foldl_optional, hmerged]
    simp [or_and_right, exists_or]
  links := by
    have hmerged : (merged.links.filter (·.kind ≠ .extends)).filter (·.kind ≠ .extends) =
        merged.withoutBaseLinks.links := by simp [ThingModel.withoutBaseLinks, List.filter_filter]
    rw [flatMap_reverse_concat, he.map_filter, ← h.links, ThingModel.withoutBaseLinks,
      ThingModel.mergeBase, List.filter_append, hmerged]

/-- All the bases of a model underneath it, the nearest one first. -/
def ThingModel.mergeAll (m : ThingModel) (bases : List LocatedModel) : ThingModel :=
  bases.foldl (fun merged e => merged.mergeBase e.2) m

theorem IsMerged.mergeAll {chain bases : List LocatedModel} {merged : ThingModel}
    (h : IsMerged chain merged.withoutBaseLinks) (hbases : ∀ e ∈ bases, DeclaresLinks e) :
    IsMerged (chain ++ bases) (merged.mergeAll bases).withoutBaseLinks := by
  induction bases generalizing chain merged with
  | nil => simpa [ThingModel.mergeAll] using h
  | cons e bases ih =>
    obtain ⟨he, hbases⟩ := List.forall_mem_cons.mp hbases
    rw [List.append_cons]
    exact ih (h.mergeBase he) hbases

/-! ## Chains -/

/-- The document at the location has no references, and is read as the model. -/
def IsLocated (documents : List (String × Json)) (e : LocatedModel) : Prop :=
  ∃ document, Entries.get? e.1 documents = some document ∧ document.referenceSites = [] ∧
    ThingModel.ofDocument document e.1 = .ok e.2

/-- The links of a model to bases. -/
def ThingModel.baseLinks (m : ThingModel) : List Link :=
  m.links.filter (·.kind = .extends)

theorem ThingModel.withoutBaseLinks_of_nil {m : ThingModel} (h : m.baseLinks = []) :
    m.withoutBaseLinks = m := by
  have hall : m.links.filter (·.kind ≠ .extends) = m.links := by
    refine List.filter_eq_self.mpr fun l hl => ?_
    have hkind := List.filter_eq_nil_iff.mp h l hl
    simpa using hkind
  rw [withoutBaseLinks, hall]

/-- The model has one base, and it is the other one. -/
def ExtendsTo (e base : LocatedModel) : Prop :=
  ∃ link, e.2.baseLinks = [link] ∧ Location.resolve e.1 link.href = base.1

/-- Models each of which has the next one for its base. -/
structure IsBaseChain (documents : List (String × Json)) (chain : List LocatedModel) : Prop where
  located : ∀ e ∈ chain, IsLocated documents e
  linked : chain.IsChain ExtendsTo

variable {documents : List (String × Json)} {e base : LocatedModel} {bases : List LocatedModel}

theorem declaresLinks_of_document {document : Json}
    (h : ThingModel.ofDocument document e.1 = .ok e.2) : DeclaresLinks e := by
  intro l hl
  unfold ThingModel.ofDocument at h
  split at h
  · rw [← Except.ok.inj h] at hl
    obtain ⟨declared, -, rfl⟩ := List.mem_map.mp hl
    rfl
  · cases h

theorem IsLocated.declaresLinks (h : IsLocated documents e) : DeclaresLinks e := by
  obtain ⟨document, -, -, h⟩ := h
  exact declaresLinks_of_document h

theorem IsBaseChain.tail (h : IsBaseChain documents (e :: bases)) :
    IsBaseChain documents bases where
  located e he := h.located e (List.mem_cons_of_mem _ he)
  linked := h.linked.tail

theorem IsBaseChain.left_of_append {chain : List LocatedModel}
    (h : IsBaseChain documents (chain ++ bases)) : IsBaseChain documents chain where
  located e he := h.located e (List.mem_append_left _ he)
  linked := h.linked.left_of_append

theorem ThingModel.baseLinks_mergeBase (m base : ThingModel) :
    (m.mergeBase base).baseLinks = base.baseLinks := by
  have hnone : (m.links.filter (·.kind ≠ .extends)).filter (·.kind = .extends) = [] := by
    simp [List.filter_filter]
  rw [baseLinks, mergeBase, List.filter_append, hnone, List.append_nil, baseLinks]

namespace Loading

variable (o : GenerationOptions) (start : String) (cache : DocumentCache) {merged : ThingModel}

/-- Reading a document without references leaves what is kept as it is. -/
theorem run_loadSingle (h : IsLocated documents e) :
    (loadSingle (m := Id) (Loader.ofDocuments documents) o e.1).run.run cache =
      (.ok e.2, cache) := by
  obtain ⟨document, hdocument, hsites, hmodel⟩ := h
  have hload : (loadDocument (m := Id) (Loader.ofDocuments documents) e.1).run.run cache =
      (.ok document, cache) := by
    simp only [loadDocument, Loader.ofDocuments, hdocument]
    rfl
  have hinline : (inlineReferences (m := Id) (Loader.ofDocuments documents) o.inliningSettings e.1
      document).run.run cache = (.ok document, cache) := by
    unfold inlineReferences Reference.inlinePasses
    rw [hsites]
    rfl
  unfold loadSingle
  rw [InlineM.run_bind, hload]
  dsimp only
  rw [InlineM.run_bind, hinline]
  dsimp only
  rw [hmodel]
  rfl

/-- The error of a chain that is too long. -/
def tooDeep (o : GenerationOptions) (start : String) : GenerationError :=
  .referenceDepthExceeded (start ++ " (" ++ extendsRelation ++ ")") o.maxReferenceDepth

theorem mergeBases_of_last (remaining : Nat) (current : String) (hlast : merged.baseLinks = []) :
    mergeBases (m := Id) (Loader.ofDocuments documents) o start remaining merged current =
      pure merged := by
  unfold mergeBases
  have hlink : merged.extendsLink current = .ok none := by
    rw [ThingModel.extendsLink, ← ThingModel.baseLinks, hlast]
  rw [hlink]
  rfl

theorem extendsLink_of_extends (hlinks : merged.baseLinks = e.2.baseLinks)
    (hextends : ExtendsTo e base) (hdeclares : DeclaresLinks e) :
    ∃ link, merged.extendsLink e.1 = .ok (some link) ∧
      Location.resolve (link.origin?.getD e.1) link.href = base.1 := by
  obtain ⟨link, hlink, hresolve⟩ := hextends
  have hmem : link ∈ e.2.baseLinks := by simp [hlink]
  have horigin := hdeclares link (List.mem_of_mem_filter hmem)
  refine ⟨link, ?_, by rw [horigin]; exact hresolve⟩
  rw [ThingModel.extendsLink, ← ThingModel.baseLinks, hlinks, hlink]

theorem mergeBases_zero (hlinks : merged.baseLinks = e.2.baseLinks)
    (hextends : ExtendsTo e base) (hdeclares : DeclaresLinks e) :
    mergeBases (m := Id) (Loader.ofDocuments documents) o start 0 merged e.1 =
      throw (tooDeep o start) := by
  obtain ⟨link, hlink, -⟩ := extendsLink_of_extends hlinks hextends hdeclares
  unfold mergeBases
  rw [hlink]
  rfl

/-- The next base is found through its link, which is relative to the document that declared it. -/
theorem run_mergeBases_succ (remaining : Nat) (hlinks : merged.baseLinks = e.2.baseLinks)
    (hextends : ExtendsTo e base) (hdeclares : DeclaresLinks e) (hbase : IsLocated documents base) :
    (mergeBases (m := Id) (Loader.ofDocuments documents) o start (remaining + 1) merged
        e.1).run.run cache =
      (mergeBases (m := Id) (Loader.ofDocuments documents) o start remaining
        (merged.mergeBase base.2) base.1).run.run cache := by
  obtain ⟨link, hlink, hresolve⟩ := extendsLink_of_extends hlinks hextends hdeclares
  rw [mergeBases, hlink]
  change (loadSingle _ o (Location.resolve (link.origin?.getD e.1) link.href) >>= fun base' =>
    mergeBases _ o start remaining (merged.mergeBase base')
      (Location.resolve (link.origin?.getD e.1) link.href)).run.run cache = _
  rw [hresolve, InlineM.run_bind, run_loadSingle o cache hbase]

/-- A chain within the limit is merged from its start, and has used up its links to bases. -/
theorem run_mergeBases (remaining : Nat) (hchain : IsBaseChain documents (e :: bases))
    (hlast : ∀ last ∈ (e :: bases).getLast?, last.2.baseLinks = [])
    (hlength : bases.length ≤ remaining) (hlinks : merged.baseLinks = e.2.baseLinks) :
    (merged.mergeAll bases).baseLinks = [] ∧
      (mergeBases (m := Id) (Loader.ofDocuments documents) o start remaining merged e.1).run.run
        cache = (.ok (merged.mergeAll bases), cache) := by
  induction bases generalizing e merged remaining with
  | nil =>
    have hnone : merged.baseLinks = [] := hlinks.trans (hlast e rfl)
    refine ⟨hnone, ?_⟩
    rw [mergeBases_of_last o start remaining e.1 hnone]
    rfl
  | cons base bases ih =>
    obtain ⟨hextends, -⟩ := List.isChain_cons_cons.mp hchain.linked
    have hdeclares := (hchain.located e List.mem_cons_self).declaresLinks
    have hbase := hchain.tail.located base List.mem_cons_self
    cases remaining with
    | zero => cases hlength
    | succ remaining =>
      rw [run_mergeBases_succ o start cache remaining hlinks hextends hdeclares hbase]
      rw [List.getLast?_cons_cons] at hlast
      exact ih remaining hchain.tail hlast (Nat.le_of_succ_le_succ hlength)
        (ThingModel.baseLinks_mergeBase _ _)

/-- One that is longer is an error. -/
theorem run_mergeBases_of_lt (remaining : Nat) (hchain : IsBaseChain documents (e :: bases))
    (hlength : remaining < bases.length) (hlinks : merged.baseLinks = e.2.baseLinks) :
    (mergeBases (m := Id) (Loader.ofDocuments documents) o start remaining merged e.1).run.run
        cache =
      (.error (tooDeep o start), cache) := by
  induction bases generalizing e merged remaining with
  | nil => cases hlength
  | cons base bases ih =>
    obtain ⟨hextends, -⟩ := List.isChain_cons_cons.mp hchain.linked
    have hdeclares := (hchain.located e List.mem_cons_self).declaresLinks
    cases remaining with
    | zero =>
      rw [mergeBases_zero o start hlinks hextends hdeclares]
      rfl
    | succ remaining =>
      have hbase := hchain.tail.located base List.mem_cons_self
      rw [run_mergeBases_succ o start cache remaining hlinks hextends hdeclares hbase]
      exact ih remaining hchain.tail (Nat.lt_of_succ_lt_succ hlength)
        (ThingModel.baseLinks_mergeBase _ _)

end Loading

/-! ## Chains without end -/

variable {chain : List LocatedModel}

/-- Where a chain returns to one of its models, each of them has a base among them. -/
theorem exists_base_of_returns (hlinked : (chain ++ [base]).IsChain ExtendsTo)
    (hbase : base ∈ chain) (he : e ∈ chain) : ∃ next ∈ chain, ExtendsTo e next := by
  obtain ⟨front, rest, rfl⟩ := List.mem_iff_append.mp he
  rw [List.append_assoc] at hlinked
  have hrest := hlinked.right_of_append
  cases rest with
  | nil => exact ⟨base, hbase, (List.isChain_cons_cons.mp hrest).1⟩
  | cons next rest => exact ⟨next, by simp, (List.isChain_cons_cons.mp hrest).1⟩

/-- Such a chain can be followed as far as one likes. -/
theorem exists_isBaseChain_of_returns (hchain : IsBaseChain documents (chain ++ [base]))
    (hbase : base ∈ chain) (length : Nat) (he : e ∈ chain) :
    ∃ bases, bases.length = length ∧ IsBaseChain documents (e :: bases) := by
  have hlocated (e : LocatedModel) (he : e ∈ chain) : IsLocated documents e :=
    hchain.located e (List.mem_append_left _ he)
  induction length generalizing e with
  | zero => exact ⟨[], rfl, by simpa using hlocated e he, .singleton e⟩
  | succ length ih =>
    obtain ⟨next, hnext, hextends⟩ := exists_base_of_returns hchain.linked hbase he
    obtain ⟨bases, hlength, hbases⟩ := ih hnext
    refine ⟨next :: bases, by rw [List.length_cons, hlength], ?_, ?_⟩
    · exact List.forall_mem_cons.mpr ⟨hlocated e he, hbases.located⟩
    · exact List.isChain_cons_cons.mpr ⟨hextends, hbases.linked⟩

namespace Loading

theorem run_loadModel (o : GenerationOptions) (cache : DocumentCache) (he : IsLocated documents e) :
    (loadModel (m := Id) (Loader.ofDocuments documents) o e.1).run.run cache =
      (mergeBases (m := Id) (Loader.ofDocuments documents) o e.1 o.maxReferenceDepth e.2
        e.1).run.run cache := by
  unfold loadModel
  rw [InlineM.run_bind, run_loadSingle o cache he]

/-- A chain of bases within the limit is merged as a whole. One beyond the limit is an error, and so
is one that returns to a model that it has been at. -/
theorem loadModel_chain (o : GenerationOptions) (cache : DocumentCache)
    (hchain : IsBaseChain documents (e :: bases)) :
    let answer := (loadModel (m := Id) (Loader.ofDocuments documents) o e.1).run.run cache
    ((∀ last ∈ (e :: bases).getLast?, last.2.baseLinks = []) →
        bases.length ≤ o.maxReferenceDepth →
        ∃ merged, answer = (.ok merged, cache) ∧ IsMerged (e :: bases) merged) ∧
      (o.maxReferenceDepth < bases.length → answer = (.error (tooDeep o e.1), cache)) ∧
      ∀ base ∈ e :: bases, IsBaseChain documents ((e :: bases) ++ [base]) →
        answer = (.error (tooDeep o e.1), cache) := by
  have he := hchain.located e List.mem_cons_self
  intro answer
  have hanswer : answer = _ := run_loadModel o cache he
  refine ⟨fun hlast hlength => ?_, fun hlength => ?_, fun base hbase hreturns => ?_⟩
  · obtain ⟨hused, hrun⟩ := run_mergeBases o e.1 cache o.maxReferenceDepth hchain hlast hlength rfl
    have hmerged := (IsMerged.single he.declaresLinks).mergeAll fun base hbase =>
      (hchain.located base (List.mem_cons_of_mem _ hbase)).declaresLinks
    rw [ThingModel.withoutBaseLinks_of_nil hused] at hmerged
    exact ⟨e.2.mergeAll bases, hanswer.trans hrun, hmerged⟩
  · exact hanswer.trans (run_mergeBases_of_lt o e.1 cache _ hchain hlength rfl)
  · obtain ⟨bases, hlength, hbases⟩ := exists_isBaseChain_of_returns hreturns hbase
      (o.maxReferenceDepth + 1) List.mem_cons_self
    have hlength : o.maxReferenceDepth < bases.length := by omega
    exact hanswer.trans (run_mergeBases_of_lt o e.1 cache _ hbases hlength rfl)

/-- A lamp with two bases, the second one beside the first; and a ring of two models. -/
def documentsWithBases : List (String × Json) := [
  ("lamp.json", .object [
    ("title", .string "Lamp"),
    ("properties", .object [("on", .bool true), ("dim", .bool true)]),
    ("links", .array [
      .object [("rel", .string "tm:extends"), ("href", .string "base/device.json")],
      .object [("rel", .string "tm:submodel"), ("href", .string "motor.json")]])]),
  ("base/device.json", .object [
    ("properties", .object [("serial", .null), ("on", .null)]),
    ("links", .array [
      .object [("rel", .string "tm:extends"), ("href", .string "thing.json")],
      .object [("rel", .string "tm:submodel"), ("href", .string "motor.json")]])]),
  ("base/thing.json", .object [
    ("description", .string "A thing"),
    ("properties", .object [("id", .null), ("serial", .bool true)])]),
  ("ring.json", .object [
    ("links", .array [.object [("rel", .string "tm:extends"), ("href", .string "gnir.json")]])]),
  ("gnir.json", .object [
    ("links", .array [.object [("rel", .string "tm:extends"), ("href", .string "ring.json")]])])]

/-- The model that is read at a location. -/
def located (documents : List (String × Json)) (location : String) : LocatedModel :=
  let read? := (Entries.get? location documents).bind fun document =>
    (ThingModel.ofDocument document location).toOption
  (location, read?.getD default)

theorem loadModel_chain_lamp :
    let lamp := located documentsWithBases "lamp.json"
    let device := located documentsWithBases "base/device.json"
    let thing := located documentsWithBases "base/thing.json"
    let load : Loader Id := Loader.ofDocuments documentsWithBases
    (∃ merged, (loadModel load {} "lamp.json").run.run ∅ = (.ok merged, ∅) ∧
        IsMerged [lamp, device, thing] merged ∧
        merged.properties.keys = ["id", "serial", "on", "dim"] ∧
        merged.links.map (·.origin?) = [some "base/device.json", some "lamp.json"]) ∧
      ((loadModel load { maxReferenceDepth := 1 } "lamp.json").run.run ∅).1 =
        .error (.referenceDepthExceeded "lamp.json (tm:extends)" 1) ∧
      ((loadModel load {} "ring.json").run.run ∅).1 =
        .error (.referenceDepthExceeded "ring.json (tm:extends)" 16) := by
  intro lamp device thing load
  let link (location href : String) : Link :=
    { relation? := some extendsRelation, href, origin? := some location }
  let ring := located documentsWithBases "ring.json"
  let gnir := located documentsWithBases "gnir.json"
  have hlamp : lamp.2.baseLinks = [link "lamp.json" "base/device.json"] := by decide +kernel
  have hdevice : device.2.baseLinks = [link "base/device.json" "thing.json"] := by decide +kernel
  have hchain : IsBaseChain documentsWithBases [lamp, device, thing] := by
    refine ⟨?_, ?_⟩
    · simp only [List.mem_cons, List.not_mem_nil, or_false]
      rintro e (rfl | rfl | rfl) <;> exact ⟨_, rfl, rfl, rfl⟩
    · refine .cons_cons ⟨_, hlamp, ?_⟩ (.cons_cons ⟨_, hdevice, ?_⟩ (.singleton thing)) <;>
        decide +kernel
  have hring : IsBaseChain documentsWithBases ([ring, gnir] ++ [ring]) := by
    refine ⟨?_, ?_⟩
    · simp only [List.mem_append, List.mem_cons, List.not_mem_nil, or_false]
      rintro e ((rfl | rfl) | rfl) <;> exact ⟨_, rfl, rfl, rfl⟩
    · refine .cons_cons ⟨link "ring.json" "gnir.json", ?_, ?_⟩
        (.cons_cons ⟨link "gnir.json" "ring.json", ?_, ?_⟩ (.singleton ring)) <;>
        decide +kernel
  refine ⟨?_, ?_, ?_⟩
  · have hlast : ∀ last ∈ [lamp, device, thing].getLast?, last.2.baseLinks = [] := by
      rintro last ⟨⟩
      decide +kernel
    obtain ⟨merged, hanswer, hmerged⟩ := (loadModel_chain {} ∅ hchain).1 hlast (by decide)
    refine ⟨merged, hanswer, hmerged, ?_, ?_⟩
    · rw [hmerged.propertyNames]
      decide +kernel
    · rw [hmerged.links]
      decide +kernel
  · have hanswer := (loadModel_chain { maxReferenceDepth := 1 } ∅ hchain).2.1 (by decide)
    exact congrArg Prod.fst hanswer
  · have hanswer := (loadModel_chain {} ∅ hring.left_of_append).2.2 ring List.mem_cons_self hring
    exact congrArg Prod.fst hanswer

end Loading

end ThingTypes
