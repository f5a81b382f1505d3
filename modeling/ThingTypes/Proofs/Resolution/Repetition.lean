import ThingTypes.Proofs.Identifier.Candidates
import ThingTypes.Proofs.Resolution.Isolation
import ThingTypes.Proofs.Resolution.Namespace

/-
  Repeated resolutions. A class or a top-level enum gets the first name that is not taken, and what
  is taken stays so; what is declared afterwards, its own members included, takes other names. So a
  second search ends at the same name and finds the structure there, and the members of a class are
  not looked at again (`Repeats`).

  An enum that nests is declared anew each time, which is why this is about top-level enums and
  about schemas without enums.
-/

namespace ThingTypes

namespace Catalog

variable {c c' : Catalog} {package name : String} {fingerprint : Fingerprint}

/-! ## Names that are taken -/

theorem Keeps.takenForClass_subset (h : c.Keeps c') (hc : c.Consistent) (hc' : c'.Consistent) :
    c.takenForClass package fingerprint ⊆ c'.takenForClass package fingerprint := by
  intro name hname
  rw [mem_takenForClass] at hname ⊢
  refine hname.imp (fun hconflict => ?_) fun hseparate => ?_
  · rw [NameTable.hasConflict, Option.any_eq_true] at hconflict ⊢
    obtain ⟨held, hheld, hne⟩ := hconflict
    exact ⟨held, h.table_get? hc hc' hheld, hne⟩
  · obtain ⟨e, he⟩ := Option.ne_none_iff_exists'.mp hseparate
    rw [h.enums he]
    exact Option.some_ne_none _

theorem Keeps.takenForEnum_subset (h : c.Keeps c') (hc : c.Consistent) (hc' : c'.Consistent) :
    c.takenForEnum package fingerprint ⊆ c'.takenForEnum package fingerprint := by
  intro name hname
  rw [mem_takenForEnum] at hname ⊢
  refine hname.imp (fun hclass => ?_) fun ⟨e, he, hne⟩ => ⟨e, h.enums he, hne⟩
  obtain ⟨held, hheld⟩ := Option.ne_none_iff_exists'.mp hclass
  rw [h.table_get? hc hc' hheld]
  nofun

/-- The name of a structure is not taken for that structure. -/
theorem Consistent.not_mem_takenForClass (hc : c.Consistent)
    (h : c.classes.table.get? ⟨package, name⟩ = some fingerprint) :
    name ∉ c.takenForClass package fingerprint := by
  rw [mem_takenForClass, hc.not_enum_of_table h, NameTable.hasConflict, h]
  simp

theorem Consistent.not_mem_takenForEnum (hc : c.Consistent) {e : EnumDecl}
    (h : c.enums.separate? ⟨package, name⟩ = some e) (he : e.fingerprint = fingerprint) :
    name ∉ c.takenForEnum package fingerprint := by
  have hclass := hc.enum_apart (ne_of_eq_of_ne h nofun)
  rw [mem_takenForEnum, hclass, h]
  simp [he]

/-! ## Enums at the top level only -/

/-- Every name of an enum is that of a top-level one, with its values. -/
def EnumsSeparate (c : Catalog) : Prop :=
  ∀ k, c.enums.table.get? k = (c.enums.separate? k).map EnumDecl.fingerprint

theorem enumsSeparate_empty : EnumsSeparate {} := fun _ => rfl

theorem EnumsSeparate.addEnum (h : c.EnumsSeparate) (e : EnumDecl) :
    (c.addEnum e).EnumsSeparate := by
  intro k
  rw [enumTable_addEnum, separate?_addEnum]
  split
  · rfl
  · exact h k

end Catalog

namespace Resolution

variable {α β : Type} {s : ResolutionSettings} {site : Site} {name : String}
  {fingerprint : Fingerprint} {st st' st'' : ResolutionState}

/-- Runs of resolutions that nest no enum leave none nested. -/
def Separating {α : Type} (x : ResolveM α) (R : α → Prop) : Prop :=
  ∀ c : Catalog, c.EnumsSeparate →
    Outcome x c (fun a c' => c'.EnumsSeparate ∧ R a) (·.EnumsSeparate)

theorem separating_stepRules (hs : s.placement = .separate) :
    StepRules s (fun _ => True) Separating where
  pure h _ hc := .pure ⟨hc, h⟩
  throw _ _ hc := .throw hc
  bind hx hf c hc := .bind (hx c hc) fun a c' ⟨hc', ha⟩ => hf a ha c' hc'
  nested hx c hc := .nested (hx c hc) hc
  claimClass {name fingerprint site} _ c hc := by
    rw [← bind_pure (claimClass s name fingerprint site)]
    exact claimClass_bind hc (fun type hoffers _ => .pure ⟨hc, hoffers.topLevel.1⟩)
      fun type hoffers _ => .pure ⟨hc, hoffers.topLevel.1⟩
  addClass _ _ hc := .modifyCatalog ⟨hc, trivial⟩
  addAlias _ _ hc := .modifyCatalog ⟨hc, trivial⟩
  modifyClass _ _ hc := .modifyCatalog ⟨hc, trivial⟩
  declareEnum {hint? info content site placement} _ hplacement c hc := by
    have hseparate : placement = .separate := hplacement.elim (·.trans hs) id
    refine declareEnum_outcome hc (fun _ _ _ hinline => ?_) (fun _ found _ _ _ _ => ?_)
      fun _ _ _ _ _ _ => ⟨hc, trivial⟩
    · cases hseparate.symm.trans hinline
    · exact ⟨hc.addEnum _, trivial⟩

/-- After calls that nest no enum, none is nested. -/
theorem enumsSeparate_foldl_after {calls : List Call}
    (hcalls : ∀ call ∈ calls, call.settings.placement = .separate)
    (hst : st.catalog.EnumsSeparate) : (calls.foldl Call.after st).catalog.EnumsSeparate := by
  induction calls generalizing st with
  | nil => exact hst
  | cons call calls ih =>
    refine ih (fun call hmem => hcalls call (List.mem_cons_of_mem _ hmem)) ?_
    have hcall : Separating call.act fun _ => True :=
      Call.of_stepRules (separating_stepRules (hcalls call List.mem_cons_self)) fun _ _ => trivial
    have houtcome := hcall st.catalog hst
    unfold Call.after
    cases hact : call.act st with
    | ok type st' => exact (houtcome.of_ok hact).1
    | error e st' => exact houtcome.of_error hact

/-- After calls the depth is what it was. -/
theorem depth_foldl_after (calls : List Call) (st : ResolutionState) :
    (calls.foldl Call.after st).depth = st.depth := by
  have hsame := @within_foldl_after (fun _ => true) calls (fun _ _ _ _ => rfl) st
  exact (ResolutionState.within_eq_iff.mp hsame).2

/-! ## The same name again -/

/-- The search for the name of a class, through what is not taken. -/
def classSearch (s : ResolutionSettings) (name : String) (fingerprint : Fingerprint) (site : Site)
    (c : Catalog) : Option String :=
  Identifier.firstFree? (derivedClassName s name fingerprint site c) site.context.parentName?
    site.context.feature? (c.takenForClass site.package fingerprint)

/-- A claim comes to what the search finds. -/
theorem classClaim?_cases (c : Catalog) :
    classSearch s name fingerprint site c = none ∧
        classClaim? s name fingerprint site c = none ∨
      ∃ found renamed, classSearch s name fingerprint site c = some found ∧
        (c.classes.table.get? ⟨site.package, found⟩ = some fingerprint ∧
            classClaim? s name fingerprint site c = some (⟨found, renamed, true⟩, c) ∨
          c.classes.table.get? ⟨site.package, found⟩ = none ∧
            ∃ c', classClaim? s name fingerprint site c = some (⟨found, renamed, false⟩, c')) := by
  rcases c.claimClassName_cases site.package (Identifier.searchCandidates
      (derivedClassName s name fingerprint site c) site.context.parentName? site.context.feature?
      (c.takenForClass site.package fingerprint)) fingerprint with
    hnone | ⟨found, renamed, hfound, hheld | ⟨hfree, hclaim⟩⟩
  · exact .inl hnone
  · exact .inr ⟨found, renamed, hfound, .inl hheld⟩
  · exact .inr ⟨found, renamed, hfound, .inr ⟨hfree.1, _, hclaim⟩⟩

/-- A search ends where it ended before while that name holds the structure, whatever else is
declared. -/
theorem classSearch_again {c c'' : Catalog} {found : String} (hc : c.Consistent)
    (hc'' : c''.Consistent) (hkeeps : c.Keeps c'')
    (h : classSearch s name fingerprint site c = some found)
    (hheld : c''.classes.table.get? ⟨site.package, found⟩ = some fingerprint) :
    classSearch s name fingerprint site c'' = some found :=
  Identifier.firstFree?_derived_stable (hkeeps.takenForClass_subset hc hc'') h
    (hc''.not_mem_takenForClass hheld)

/-- So a claim ends at the same name, and finds the structure there. -/
theorem claimClass_again {slot : ClassSlot} (hc : st.catalog.Consistent)
    (hc'' : st''.catalog.Consistent) (hkeeps : st.catalog.Keeps st''.catalog)
    (h : claimClass s name fingerprint site st = .ok slot st')
    (hheld : st''.catalog.classes.table.get? slot.type.key = some fingerprint) :
    claimClass s name fingerprint site st'' = .ok (.existing slot.type) st'' := by
  rw [claimClass_eq, ofCatalog_eq_ok_iff] at h ⊢
  obtain ⟨c, hclaimed, -⟩ := h
  refine ⟨st''.catalog, ?_, rfl⟩
  unfold claimedClass at hclaimed ⊢
  split_ifs at hclaimed ⊢
  obtain ⟨found, hfound, htype⟩ : ∃ found, classSearch s name fingerprint site st.catalog =
      some found ∧ slot.type = { package := site.package, name := found } := by
    rcases classClaim?_cases st.catalog with
      ⟨-, hclaim⟩ | ⟨found, renamed, hfound, ⟨-, hclaim⟩ | ⟨-, c', hclaim⟩⟩
    · rw [hclaim] at hclaimed
      cases hclaimed
    all_goals
      rw [hclaim] at hclaimed
      cases hclaimed
      exact ⟨found, hfound, type_slotOf _ _⟩
  rw [htype] at hheld ⊢
  have hfound'' := classSearch_again hc hc'' hkeeps hfound hheld
  rcases classClaim?_cases st''.catalog with
    ⟨hnone, -⟩ | ⟨found', renamed, hfound', ⟨-, hclaim⟩ | ⟨hfree, -⟩⟩
  · cases hnone.symm.trans hfound''
  · cases hfound'.symm.trans hfound''
    rw [hclaim]
    rfl
  · cases hfound'.symm.trans hfound''
    cases hfree.symm.trans hheld

/-- A class that is there already is found again. -/
theorem declareClass_again {node : SchemaNode} {kind : ClassKind}
    {members : TypeName → ResolveM (ClassDecl → ClassDecl)} {type : TypeName}
    (hc : st.catalog.Consistent) (hc'' : st''.catalog.Consistent)
    (hkeeps : st.catalog.Keeps st''.catalog)
    (h : declareClass s name node kind site members st = .ok type st')
    (hheld : st''.catalog.classes.table.get? type.key = some (node.fingerprint s.digest)) :
    declareClass s name node kind site members st'' = .ok type st'' := by
  unfold declareClass at h ⊢
  obtain ⟨slot, st₁, hclaim, hrest⟩ := bind_eq_ok_iff.mp h
  have htype : slot.type = type := by
    cases slot with
    | existing type' =>
      cases hrest
      rfl
    | fresh type' =>
      obtain ⟨_, _, _, hrest⟩ := bind_eq_ok_iff.mp hrest
      obtain ⟨_, _, _, hrest⟩ := bind_eq_ok_iff.mp hrest
      obtain ⟨_, _, _, hrest⟩ := bind_eq_ok_iff.mp hrest
      cases hrest
      rfl
  subst htype
  exact bind_eq_ok_iff.mpr ⟨_, st'', claimClass_again hc hc'' hkeeps hclaim hheld, rfl⟩

/-- The name of an enum is found again while that is not taken, whatever else is declared. -/
theorem separateEnumName_again {c c'' : Catalog} {found : String} (hc : c.Consistent)
    (hc'' : c''.Consistent) (hkeeps : c.Keeps c'')
    (h : separateEnumName s c name fingerprint site = .ok found)
    (hfree : found ∉ c''.takenForEnum site.package fingerprint) :
    separateEnumName s c'' name fingerprint site = .ok found := by
  have hsub : c.takenForEnum site.package fingerprint ⊆ c''.takenForEnum site.package fingerprint :=
    hkeeps.takenForEnum_subset hc hc''
  rw [separateEnumName_eq_ok_iff] at h ⊢
  rcases h with ⟨-, rfl⟩ | ⟨hclass, hfirst⟩
  · have hsame : derivedEnumName s c'' name fingerprint site =
        derivedEnumName s c name fingerprint site :=
      Identifier.deriveName_stable hsub fun _ => hfree
    rw [hsame]
    refine .inl ⟨?_, rfl⟩
    by_contra hclass
    exact hfree (c''.mem_takenForEnum.mpr (.inl hclass))
  · have htaken : derivedEnumName s c name fingerprint site ∈
        c.takenForEnum site.package fingerprint := c.mem_takenForEnum.mpr (.inl hclass)
    have hsame : derivedEnumName s c'' name fingerprint site =
        derivedEnumName s c name fingerprint site :=
      Identifier.deriveName_stable hsub fun hnot => absurd htaken hnot
    rw [hsame]
    obtain ⟨held, hheld⟩ := Option.ne_none_iff_exists'.mp hclass
    refine .inr ⟨?_, Identifier.firstFree?_stable hsub hfirst hfree⟩
    rw [hkeeps.table_get? hc hc'' hheld]
    nofun

theorem declareSeparateEnum_stands {c : Catalog} {info : SchemaInfo} {content : EnumContent}
    (hc : c.EnumsSeparate) :
    Outcome (declareSeparateEnum s name info content site) c
      (fun type c' => ∃ found d, type = { package := site.package, name := found } ∧
        separateEnumName s c name content.fingerprint site = .ok found ∧
        c'.enums.separate? type.key = some d ∧ d.fingerprint = content.fingerprint)
      fun _ => True := by
  refine declareSeparateEnum_outcome trivial (fun found hfound _ => ?_)
    fun found hfound htable => ?_
  · exact ⟨found, _, rfl, hfound, c.separate?_addEnum_self _, rfl⟩
  · rw [hc] at htable
    obtain ⟨d, hd, hvalues⟩ := Option.map_eq_some_iff.mp htable
    exact ⟨found, d, rfl, hfound, hd, hvalues⟩

/-- An enum that stands at the top level already is found again. -/
theorem declareSeparateEnum_again {info : SchemaInfo} {content : EnumContent} {type : TypeName}
    (hc : st.catalog.Consistent ∧ st.catalog.EnumsSeparate)
    (hc'' : st''.catalog.Consistent ∧ st''.catalog.EnumsSeparate)
    (hkeeps : st.catalog.Keeps st''.catalog) (hkeeps' : st'.catalog.Keeps st''.catalog)
    (h : declareSeparateEnum s name info content site st = .ok type st') :
    declareSeparateEnum s name info content site st'' = .ok type st'' := by
  obtain ⟨found, d, rfl, hfound, hd, hvalues⟩ := (declareSeparateEnum_stands hc.2).of_ok h
  have hd'' : st''.catalog.enums.separate? ⟨site.package, found⟩ = some d := hkeeps'.enums hd
  have hfree := hc''.1.not_mem_takenForEnum hd'' hvalues
  have hfound'' := separateEnumName_again hc.1 hc''.1 hkeeps hfound hfree
  have htable : st''.catalog.enums.table.get? (enumDecl found info content site.package none).key =
      some (enumDecl found info content site.package none).fingerprint := by
    change st''.catalog.enums.table.get? ⟨site.package, found⟩ = some content.fingerprint
    rw [hc''.2, hd'', Option.map_some, hvalues]
  rw [declareSeparateEnum_eq, ofCatalog_eq_ok_iff]
  refine ⟨st''.catalog, ?_, rfl⟩
  rw [withSeparateEnum, hfound'']
  dsimp only
  rw [EnumCatalog.insertSeparate_of_same htable]

/-! ## The same type again -/

/-- What a run answers it answers again in later states, and it leaves them as they are. This is
between states of which `I` holds. -/
structure Repeats (I : Catalog → Prop) (x : ResolveM α) : Prop where
  again : ∀ {st st' st'' : ResolutionState} {a : α}, I st.catalog → I st''.catalog →
    x st = .ok a st' → st'.catalog.Keeps st''.catalog → st''.depth = st.depth → x st'' = .ok a st''

namespace Repeats

variable {I : Catalog → Prop} {x : ResolveM α}

theorem pure (a : α) : Repeats I (Pure.pure a) where
  again _ _ h _ _ := by
    cases h
    rfl

theorem throw (e : GenerationError) : Repeats I (MonadExcept.throw e : ResolveM α) where
  again _ _ h _ _ := by cases h

theorem map (hx : Repeats I x) (g : α → β) : Repeats I (x >>= fun a => Pure.pure (g a)) where
  again {st st' st'' b} hst hst'' h hkeeps hdepth := by
    obtain ⟨a, st₁, hrun, hrest⟩ := bind_eq_ok_iff.mp h
    cases hrest
    exact bind_eq_ok_iff.mpr ⟨a, st'', hx.again hst hst'' hrun hkeeps hdepth, rfl⟩

theorem liftExcept_bind {r : Except GenerationError α} {f : α → ResolveM β}
    (hf : ∀ a, Repeats I (f a)) : Repeats I (liftExcept r >>= f) := by
  cases r with
  | ok a => exact hf a
  | error e => exact throw e

theorem nested (hx : Repeats I x) : Repeats I (nested s site x) where
  again {st st' st'' a} hst hst'' h hkeeps hdepth := by
    unfold Resolution.nested at h ⊢
    rw [hdepth]
    split_ifs at h ⊢
    dsimp only at h ⊢
    cases hrun : x ⟨st.catalog, st.depth + 1⟩ with
    | error e st₁ =>
      rw [hrun] at h
      cases h
    | ok b st₁ =>
      rw [hrun] at h
      cases h
      have hagain : x ⟨st''.catalog, st.depth + 1⟩ = .ok a ⟨st''.catalog, st.depth + 1⟩ :=
        @again _ _ _ hx ⟨st.catalog, st.depth + 1⟩ st₁ ⟨st''.catalog, st.depth + 1⟩ a hst hst'' hrun
          hkeeps rfl
      rw [hagain, ← hdepth]
      rfl

end Repeats

variable {I : Catalog → Prop} {hint? : Option String} {info : SchemaInfo} {shape : ObjectSchema}

theorem declareEnum_repeats {content : EnumContent}
    (hI : ∀ c, I c → c.Consistent ∧ c.EnumsSeparate) :
    Repeats I (declareEnum s hint? info content site .separate) := by
  refine ⟨fun {st st' st'' type} hst hst'' h hkeeps _ => ?_⟩
  have hgrowing : Growing s.digest site.context.parent? none
      (declareEnum s hint? info content site .separate) :=
    declareEnum_growing hint? info content .separate
  have hfirst := ((hgrowing st.catalog).of_ok h).keeps (hI _ hst).1
  unfold declareEnum at h ⊢
  cases hname : hintedName? hint? info.title? with
  | none =>
    rw [hname] at h
    cases h
  | some name =>
    rw [hname] at h
    exact declareSeparateEnum_again (hI _ hst) (hI _ hst'') (hfirst.trans hkeeps) hkeeps h

/-- A class holds its name with its fingerprint from when it is declared. -/
theorem classOf_held {c : Catalog} (hc : c.Consistent) :
    Outcome (classOf s name info shape (partsOf s shape) site) c
      (fun type c' => c'.classes.table.get? type.key =
        some ((SchemaNode.mk info (.object shape)).fingerprint s.digest)) fun _ => True := by
  have hheld {kind : ClassKind} {type : TypeName} {c' : Catalog} {f : ClassDecl → ClassDecl}
      (hfree : c.IsFree type.key)
      (hgrows : Catalog.Grows s.digest (some type) (some type)
        (c.addClass (classFrame s info shape site kind type)) c') :
      (c'.modifyClass type.key f).classes.table.get? type.key =
        some ((SchemaNode.mk info (.object shape)).fingerprint s.digest) := by
    have hc' := hc.addClass (d := classFrame s info shape site kind type) hfree
    refine (hgrows.keeps hc').table_get? hc' (hgrows.consistent hc') ?_
    exact Catalog.table_addClass .. |>.trans (if_pos rfl)
  refine classOf_outcome trivial (fun _ _ _ h => h) (fun type alternatives _ _ _ hfree => ?_)
    (fun type values _ _ _ _ hfree => ?_) fun type _ _ _ _ hfree => ?_
  · exact (sealedVariants_growing alternatives type ((site.inside type).child "oneOf") _).mono
      (fun _ _ h => hheld hfree h) fun _ _ => trivial
  · have hvalue := typeAt_growing (s := s) (some (type.name ++ "Item")) values.schema
      ((site.inside type).child values.keyword.name)
    exact (hvalue.of_unsealed _).mono (fun _ _ h => hheld hfree h) fun _ _ => trivial
  · have hfields : Growing s.digest (some type) none
        (fieldsAt s shape.required shape.properties (site.inside type)) :=
      fieldsAt_growing shape.required shape.properties
    exact (hfields.of_unsealed _).mono (fun _ _ h => hheld hfree h) fun _ _ => trivial

/-- Whatever members a class has, it is declared in one way. -/
theorem exists_classOf_eq (h : (SchemaNode.mk info (.object shape)).enumValues? = none)
    (parts : ObjectParts) :
    ∃ kind members, classOf s name info shape parts site =
      declareClass s name (.mk info (.object shape)) kind site members := by
  unfold classOf
  simp only [h, Option.isSome_none, Bool.false_eq_true, if_false]
  split
  all_goals exact ⟨_, _, rfl⟩

theorem classOf_repeats (hI : ∀ c, I c → c.Consistent) :
    Repeats I (classOf s name info shape (partsOf s shape) site) := by
  refine ⟨fun {st st' st'' type} hst hst'' h hkeeps _ => ?_⟩
  have hgrows := (classOf_partsOf_growing name info shape st.catalog).of_ok h
  have hc := hI _ hst
  have hc'' := hI _ hst''
  have hheld := hkeeps.table_get? (hgrows.consistent hc) hc'' ((classOf_held hc).of_ok h)
  have hkeeps'' := (hgrows.keeps hc).trans hkeeps
  cases hvalues : (SchemaNode.mk info (.object shape)).enumValues? with
  | some values =>
    simp only [classOf, hvalues, Option.isSome_some, if_true] at h
    cases h
  | none =>
    obtain ⟨kind, members, hclass⟩ := exists_classOf_eq hvalues (partsOf s shape)
    rw [hclass] at h ⊢
    exact declareClass_again hc hc'' hkeeps'' h hheld

/-- A type is found again: enums at the top level as classes are, and in lists and maps too. -/
theorem typeAt_repeats (hI : ∀ c, I c → c.Consistent) {node : SchemaNode}
    (hnode : (s.placement = .separate ∧ ∀ c, I c → c.EnumsSeparate) ∨ node.EnumFree) :
    ∀ hint? site, Repeats I (typeAt s hint? node site) := by
  have henum {hint? : Option String} {info : SchemaInfo} {content : EnumContent} {site : Site}
      (h : s.placement = .separate ∧ ∀ c, I c → c.EnumsSeparate) :
      Repeats I (declareEnum s hint? info content site s.placement) := by
    rw [h.1]
    exact declareEnum_repeats fun c hc => ⟨hI c hc, h.2 c hc⟩
  -- a class is found again by its own name, so the induction is for lists and maps alone
  induction node using SchemaNode.byChildren with
  | scalar info kind =>
    intro hint? site
    rw [typeAt]
    refine .nested ?_
    unfold scalarType
    dsimp only
    cases hvalues : (SchemaNode.mk info (.scalar kind)).enumValues? with
    | none => exact .pure _
    | some values =>
      rcases hnode with hseparate | hfree
      · dsimp only
        split
        · exact .liftExcept_bind fun content => .map (henum hseparate) TypeRef.enumType
        · exact .pure _
      · cases hvalues.symm.trans hfree.enumValues?_eq
  | null info =>
    intro hint? site
    rw [typeAt]
    exact .nested (.pure _)
  | array info items ih =>
    intro hint? site
    rw [typeAt]
    refine .nested (.map (ih ?_ _ _) TypeRef.list)
    exact hnode.imp_right fun hfree => hfree.child (SchemaNode.mem_children_array.mpr rfl)
  | object info shape _ _ hvalue =>
    intro hint? site
    rw [typeAt_eq_of_object]
    refine .nested ?_
    unfold objectType
    dsimp only
    cases hvalues : (SchemaNode.mk info (.object shape)).enumValues? with
    | some values =>
      rcases hnode with hseparate | hfree
      · exact .liftExcept_bind fun content => .map (henum hseparate) TypeRef.enumType
      · cases hvalues.symm.trans hfree.enumValues?_eq
    | none =>
      dsimp only
      split
      · rename_i values _ hmapValues
        rw [partsOf, hmapValues]
        simp only [mapValueAt]
        refine .map (hvalue values hmapValues ?_ _ _) TypeRef.map
        exact hnode.imp_right fun hfree =>
          hfree.child (SchemaNode.mem_children_of_mapValues hmapValues)
      · split
        · exact .throw _
        · exact .map (classOf_repeats hI) TypeRef.classType

/-- A field that has been resolved resolves to the same type after any further calls, and nothing is
declared or changed then. Under either naming policy this holds of any schema if no call nests
enums, and of a schema without enums wherever the calls place theirs. -/
theorem resolveField_repeats {field package : String} {node : SchemaNode} {context : NamingContext}
    {calls later : List Call} {type : TypeRef}
    (hnode : (s.placement = .separate ∧
      ∀ call ∈ calls ++ later, call.settings.placement = .separate) ∨ node.EnumFree)
    (h : resolveField s field node package context (calls.foldl Call.after {}) = .ok type st') :
    let st'' := later.foldl Call.after st'
    resolveField s field node package context st'' = .ok type st'' := by
  intro st''
  let call : Call := { settings := s, request := .field field, node, package, context }
  have hst' : st' = (calls ++ [call]).foldl Call.after {} := by
    rw [List.foldl_append, List.foldl_cons, List.foldl_nil, Call.after_eq]
    change _ = leaves (resolveField s field node package context) _
    rw [leaves, h]
  have hc' : st'.catalog.Consistent := hst' ▸ consistent_foldl_after _ Catalog.consistent_empty
  have hkeeps : st'.catalog.Keeps st''.catalog := keeps_foldl_after later hc'
  have hdepth : st''.depth = (calls.foldl Call.after {}).depth := by
    rw [depth_foldl_after, depth_foldl_after, hst', depth_foldl_after]
  have hc : (calls.foldl Call.after {}).catalog.Consistent :=
    consistent_foldl_after calls Catalog.consistent_empty
  have hc'' := consistent_foldl_after later hc'
  rcases hnode with ⟨hs, hcalls⟩ | hfree
  · have hseparate : ∀ call' ∈ calls, call'.settings.placement = .separate := fun call' hmem =>
      hcalls call' (List.mem_append_left _ hmem)
    have hlater : ∀ call' ∈ later, call'.settings.placement = .separate := fun call' hmem =>
      hcalls call' (List.mem_append_right _ hmem)
    have hboth : ∀ call' ∈ calls ++ [call], call'.settings.placement = .separate := by
      simpa [or_imp, forall_and, call, hs] using hseparate
    have he : (calls.foldl Call.after {}).catalog.EnumsSeparate :=
      enumsSeparate_foldl_after hseparate Catalog.enumsSeparate_empty
    have he'' : st''.catalog.EnumsSeparate := by
      refine enumsSeparate_foldl_after hlater ?_
      rw [hst']
      exact enumsSeparate_foldl_after hboth Catalog.enumsSeparate_empty
    have hrepeats : Repeats (fun c => c.Consistent ∧ c.EnumsSeparate)
        (resolveField s field node package context) :=
      typeAt_repeats (fun _ hc => hc.1) (.inl ⟨hs, fun _ hc => hc.2⟩) _ _
    exact hrepeats.again ⟨hc, he⟩ ⟨hc'', he''⟩ h hkeeps hdepth
  · have hrepeats : Repeats Catalog.Consistent (resolveField s field node package context) :=
      typeAt_repeats (fun _ hc => hc) (.inr hfree) _ _
    exact hrepeats.again hc hc'' h hkeeps hdepth

/-- A lamp with a brightness. -/
def dimmerIn (package : String) : Call :=
  { lampIn package with node := .ofProperties [("brightness", .mk {} (.scalar .integer))] [] }

/-- The second kind of lamp in a hall has another name, and keeps it. -/
theorem resolveField_repeats_hall :
    let lamp := lampIn "hall"
    let type : TypeRef := .classType { package := "hall", name := "SharedLamp" }
    ∃ st, resolveField lamp.settings "lamp" lamp.node "hall" .root
          ([dimmerIn "hall"].foldl Call.after {}) = .ok type st ∧
      let st' := [lampIn "attic", dimmerIn "hall"].foldl Call.after st
      resolveField lamp.settings "lamp" lamp.node "hall" .root st' = .ok type st' := by
  intro lamp type
  have hseparate : lamp.settings.placement = .separate ∧
      ∀ call ∈ [dimmerIn "hall"] ++ [lampIn "attic", dimmerIn "hall"],
        call.settings.placement = .separate := by
    simp [lamp, lampIn, dimmerIn]
  have hrun : (answer (resolveField lamp.settings "lamp" lamp.node "hall" .root)
      ([dimmerIn "hall"].foldl Call.after {})).toOption = some type := by
    decide +kernel
  rw [answer] at hrun
  cases h : resolveField lamp.settings "lamp" lamp.node "hall" .root
      ([dimmerIn "hall"].foldl Call.after {}) with
  | error e st =>
    rw [h] at hrun
    cases hrun
  | ok found st =>
    rw [h] at hrun
    cases hrun
    exact ⟨st, rfl, resolveField_repeats (.inl hseparate) h⟩

end Resolution

end ThingTypes
