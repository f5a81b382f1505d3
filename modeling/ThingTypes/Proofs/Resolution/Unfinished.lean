import ThingTypes.Proofs.Resolution.Depth

/-
  Resolutions that fail, and what happens when they are repeated. A class is in the catalog before
  its members are, and stays there when one of them fails. The next resolution finds its structure
  under its name and answers it as it is, without members. So a failure repeats exactly where
  nothing was declared on the way to it (`failure_repeats_iff`).
-/

namespace ThingTypes

/-- A class of which only the frame is there: its name was free before, and it has no members
now. -/
structure Catalog.Unfinished (c c' : Catalog) (type : TypeName) : Prop where
  free : c.IsFree type.key
  memberless : ∃ d, c'.classes.class? type.key = some d ∧
    d.fields = [] ∧ d.variants = [] ∧ d.mapValue? = none

/-- What is declared later gives the class no members. -/
theorem Catalog.Unfinished.kept {c c' c'' : Catalog} {type : TypeName}
    (h : c.Unfinished c' type) (hkeeps : c'.Keeps c'') : c.Unfinished c'' type where
  free := h.free
  memberless := by
    obtain ⟨d, hd, hmembers⟩ := h.memberless
    obtain ⟨d', hd', _, _, rfl, -⟩ := hkeeps.classes hd
    exact ⟨_, hd', hmembers⟩

namespace Resolution

variable {α β : Type} {s : ResolutionSettings} {site : Site} {name : String}
  {st st' : ResolutionState} {e : GenerationError}

/-! ## Classes that fail -/

/-- A new name comes into the table, where it was free. -/
theorem eq_of_claimClass_fresh {fingerprint : Fingerprint} {type : TypeName}
    (h : claimClass s name fingerprint site st = .ok (.fresh type) st') :
    type.owner? = none ∧ st.catalog.IsFree type.key ∧
      st' = { st with
        catalog :=
          { st.catalog with
            classes :=
              { st.catalog.classes with
                table := st.catalog.classes.table.insert type.key fingerprint } } } := by
  rw [claimClass_eq, ofCatalog_eq_ok_iff] at h
  obtain ⟨c, hclaimed, rfl⟩ := h
  unfold claimedClass classClaim? at hclaimed
  split_ifs at hclaimed
  rcases st.catalog.claimClassName_cases site.package (Identifier.searchCandidates
      (derivedClassName s name fingerprint site st.catalog) site.context.parentName?
      site.context.feature? (st.catalog.takenForClass site.package fingerprint)) fingerprint with
    ⟨-, hclaim⟩ | ⟨found, renamed, -, ⟨-, hclaim⟩ | ⟨hfree, hclaim⟩⟩
  all_goals
    rw [hclaim] at hclaimed
    cases hclaimed
  exact ⟨rfl, hfree, rfl⟩

/-- A class declaration fails before it changes anything, or at a member of a class that has been
added. -/
theorem declareClass_eq_error {node : SchemaNode} {kind : ClassKind}
    {members : TypeName → ResolveM (ClassDecl → ClassDecl)}
    (h : declareClass s name node kind site members st = .error e st') :
    st' = st ∨ ∃ type st₁,
      claimClass s name (node.fingerprint s.digest) site st = .ok (.fresh type) st₁ ∧
      members type { st with
        catalog := st.catalog.addClass
          (.ofSchema type (node.fingerprint s.digest) kind site.context.role node.info) } =
        .error e st' := by
  unfold declareClass at h
  rcases bind_eq_error_iff.mp h with hclaim | ⟨slot, st₁, hclaim, hrest⟩
  · rw [claimClass_eq] at hclaim
    exact .inl (eq_of_ofCatalog_eq_error hclaim)
  · cases slot with
    | existing type => cases hrest
    | fresh type =>
      refine .inr ⟨type, st₁, hclaim, ?_⟩
      obtain ⟨-, -, rfl⟩ := eq_of_claimClass_fresh hclaim
      rcases bind_eq_error_iff.mp hrest with hadd | ⟨_, _, hadd, hmembers⟩
      · cases hadd
      · cases hadd
        rcases bind_eq_error_iff.mp hmembers with hfail | ⟨f, st₂, -, hfinish⟩
        · exact hfail
        · cases hfinish

/-- A class that fails at a member is found the next time, and has no members then. -/
theorem declareClass_after_error {node : SchemaNode} {kind : ClassKind}
    {members : TypeName → ResolveM (ClassDecl → ClassDecl)} (hc : st.catalog.Consistent)
    (hmembers : ∀ type, Growing s.digest (some type) (some type) (members type))
    (h : declareClass s name node kind site members st = .error e st') :
    st' = st ∨ ∃ type, declareClass s name node kind site members st' = .ok type st' ∧
      st.catalog.Unfinished st'.catalog type := by
  rcases declareClass_eq_error h with hsame | ⟨type, st₁, hclaim, hfail⟩
  · exact .inl hsame
  obtain ⟨howner, hfree, -⟩ := eq_of_claimClass_fresh hclaim
  have hadd := hc.addClass (d := .ofSchema type (node.fingerprint s.digest) kind site.context.role
    node.info) hfree
  have hgrows := (hmembers type _).of_error hfail
  have hc' := hgrows.consistent hadd
  have hkeeps := hgrows.keeps hadd
  have hframed : Catalog.Grows s.digest none none st.catalog st'.catalog :=
    .newFrame howner hfree hgrows
  obtain ⟨d, hd, _, _, rfl, -⟩ := hkeeps.classes (Catalog.class?_addClass_self ..)
  refine .inr ⟨type, ?_, hfree, _, hd, rfl, rfl, rfl⟩
  have hagain := claimClass_again hc hc' (hframed.keeps hc) hclaim (hc'.class_held hd).2
  exact bind_eq_ok_iff.mpr ⟨_, st', hagain, rfl⟩

/-- The members of a class are resolved by a growing catalog, whatever kind of class it is. -/
theorem exists_classOf_eq_growing {info : SchemaInfo} {shape : ObjectSchema}
    (hvalues : (SchemaNode.mk info (.object shape)).enumValues? = none) :
    ∃ kind members,
      classOf s name info shape (partsOf s shape) site =
        declareClass s name (.mk info (.object shape)) kind site members ∧
      ∀ type, Growing s.digest (some type) (some type) (members type) := by
  unfold classOf
  simp only [hvalues, Option.isSome_none, Bool.false_eq_true, if_false]
  split
  · rename_i alternatives honeOf
    refine ⟨_, _, rfl, fun type => ?_⟩
    have hvariants := sealedVariants_growing (s := s) alternatives type
      ((site.inside type).child "oneOf")
    unfold sealedVariants at hvariants
    cases hsole : soleScalars? alternatives with
    | some members =>
      rw [hsole] at hvariants
      exact hvariants.bind fun variants => .pure _
    | none =>
      rw [hsole] at hvariants
      rw [partsOf, honeOf]
      simp only [alternativesAt]
      exact hvariants.bind fun variants => .pure _
  · rename_i values honeOf hmapValues
    refine ⟨_, _, rfl, fun type => .bind ?_ fun value => .pure _⟩
    rw [partsOf, hmapValues]
    simp only [mapValueAt]
    exact (typeAt_growing _ values.schema ((site.inside type).child _)).of_unsealed
  · refine ⟨_, _, rfl, fun type => .bind ?_ fun fields => .pure _⟩
    have hfields : Growing s.digest (some type) none
        (fieldsAt s shape.required shape.properties (site.inside type)) :=
      fieldsAt_growing shape.required shape.properties
    exact hfields.of_unsealed

/-! ## Runs that fail -/

/-- Where the run fails, it changes nothing, or it leaves a class unfinished that the next run
answers: `names` is the class that a result mentions. The next run changes nothing then. -/
structure Abandons (names : α → Option TypeName) (x : ResolveM α) : Prop where
  after_error : ∀ {st e st'}, st.catalog.Consistent → x st = .error e st' →
    st' = st ∨ st'.depth = st.depth ∧ ∃ a type, x st' = .ok a st' ∧ names a = some type ∧
      st.catalog.Unfinished st'.catalog type

namespace Abandons

variable {names : α → Option TypeName} {x : ResolveM α}

theorem pure (a : α) : Abandons names (Pure.pure a) := ⟨nofun⟩

theorem throw (e : GenerationError) : Abandons names (MonadExcept.throw e : ResolveM α) where
  after_error _ h := by
    cases h
    exact .inl rfl

theorem liftExcept_bind {r : Except GenerationError β} {f : β → ResolveM α}
    (hf : ∀ b, Abandons names (f b)) : Abandons names (liftExcept r >>= f) := by
  cases r with
  | ok b => exact hf b
  | error e => exact throw e

theorem ofCatalog (f : Catalog → Except GenerationError (α × Catalog)) :
    Abandons names (ofCatalog f) where
  after_error _ h := .inl (eq_of_ofCatalog_eq_error h)

theorem map {namesBefore : β → Option TypeName} {x : ResolveM β} {g : β → α}
    (hx : Abandons namesBefore x) (hg : ∀ b, names (g b) = namesBefore b) :
    Abandons names (x >>= fun b => Pure.pure (g b)) where
  after_error {st e st'} hc h := by
    rcases bind_eq_error_iff.mp h with hfail | ⟨b, st₁, -, hrest⟩
    · refine (hx.after_error hc hfail).imp_right ?_
      rintro ⟨hdepth, b, type, hagain, htype, hunfinished⟩
      refine ⟨hdepth, g b, type, ?_, (hg b).trans htype, hunfinished⟩
      exact bind_eq_ok_iff.mpr ⟨b, st', hagain, rfl⟩
    · cases hrest

/-- The level is left again, so the next run enters it from where this one did. -/
theorem nested (hx : Abandons names x) : Abandons names (nested s site x) where
  after_error {st e st'} hc h := by
    rcases nested_eq_error_iff.mp h with ⟨-, -, hsame⟩ | ⟨hlimit, ⟨catalog, depth⟩, hrun, rfl⟩
    · exact .inl hsame.symm
    have hc₁ : { st with depth := st.depth + 1 }.catalog.Consistent := hc
    rcases hx.after_error hc₁ hrun with hsame | ⟨hdepth, a, type, hagain, htype, hunfinished⟩
    · cases hsame
      exact .inl rfl
    · dsimp only at hdepth
      subst hdepth
      refine .inr ⟨rfl, a, type, ?_, htype, hunfinished⟩
      exact nested_eq_ok_iff.mpr ⟨hlimit, _, hagain, rfl⟩

end Abandons

variable {hint? : Option String} {info : SchemaInfo} {shape : ObjectSchema}
  {names : TypeName → Option TypeName}

/-- An enum is declared as a whole. -/
theorem declareEnum_abandons {content : EnumContent} {placement : EnumPlacement} :
    Abandons names (declareEnum s hint? info content site placement) := by
  have hseparate (name : String) :
      Abandons names (declareSeparateEnum s name info content site) := by
    rw [declareSeparateEnum_eq]
    exact .ofCatalog _
  unfold declareEnum
  cases hintedName? hint? info.title? with
  | none => exact .throw _
  | some name =>
    cases placement with
    | separate => exact hseparate name
    | inline =>
      cases site.context.parent? with
      | none => exact hseparate name
      | some owner => exact ⟨nofun⟩

theorem classOf_abandons :
    Abandons some (classOf s name info shape (partsOf s shape) site) where
  after_error {st e st'} hc h := by
    have hdepth : st'.depth = st.depth := by
      have hleaves := (classOf_partsOf_limitsDepth name info shape site).depth_eq st (s := s)
      rwa [leaves, h] at hleaves
    cases hvalues : (SchemaNode.mk info (.object shape)).enumValues? with
    | some values =>
      simp only [classOf, hvalues, Option.isSome_some, if_true] at h
      cases h
      exact .inl rfl
    | none =>
      obtain ⟨kind, members, hclass, hgrowing⟩ := exists_classOf_eq_growing hvalues
      rw [hclass] at h ⊢
      refine (declareClass_after_error hc hgrowing h).imp_right ?_
      rintro ⟨type, hagain, hunfinished⟩
      exact ⟨hdepth, type, type, hagain, rfl, hunfinished⟩

/-- Types that are not classes pass on what happens to the class inside them. -/
theorem typeAt_abandons (node : SchemaNode) :
    ∀ hint? site, Abandons TypeRef.referencedName? (typeAt s hint? node site) := by
  induction node using SchemaNode.byChildren with
  | scalar info kind =>
    intro hint? site
    rw [typeAt]
    refine .nested ?_
    unfold scalarType
    dsimp only
    split
    · split
      · exact .liftExcept_bind fun content => .map declareEnum_abandons fun _ => rfl
      · exact .pure _
    · exact .pure _
  | null info =>
    intro hint? site
    rw [typeAt]
    exact .nested (.pure _)
  | array info items ih =>
    intro hint? site
    rw [typeAt]
    exact .nested (.map (ih _ _) fun _ => rfl)
  | object info shape _ _ hvalue =>
    intro hint? site
    rw [typeAt_eq_of_object]
    refine .nested ?_
    unfold objectType
    dsimp only
    split
    · exact .liftExcept_bind fun content => .map declareEnum_abandons fun _ => rfl
    · split
      · rename_i values _ hmapValues
        rw [partsOf, hmapValues]
        simp only [mapValueAt]
        exact .map (hvalue values hmapValues _ _) fun _ => rfl
      · split
        · exact .throw _
        · exact .map classOf_abandons fun _ => rfl

theorem classAt_abandons (node : SchemaNode) : Abandons some (classAt s name node site) := by
  obtain ⟨info, kind | _ | shape | items⟩ := node
  case object =>
    rw [classAt_eq_of_object]
    exact .nested classOf_abandons
  all_goals
    rw [classAt]
    exact .nested (.throw _)

theorem resolveSeparateEnum_abandons (node : SchemaNode) (package : String)
    (context : NamingContext) :
    Abandons names (resolveSeparateEnum s name node package context) := by
  unfold resolveSeparateEnum
  dsimp only
  split
  · exact .throw _
  · split
    · exact .liftExcept_bind fun content => declareEnum_abandons
    · exact .liftExcept_bind fun content => declareEnum_abandons
    · exact .throw _

theorem Call.act_abandons (call : Call) : Abandons TypeRef.referencedName? call.act := by
  unfold act
  split
  · exact typeAt_abandons call.node _ _
  · exact typeAt_abandons call.node _ _
  · rw [map_eq_pure_bind]
    exact .map (classAt_abandons call.node) fun _ => rfl
  · rw [map_eq_pure_bind]
    exact .map (resolveSeparateEnum_abandons call.node _ _) fun _ => rfl

/-- A call that fails fails again exactly if it changed nothing. Otherwise the same call is answered
the next time, by a type that mentions a class with no members; and whatever calls follow, it does
not get any. -/
theorem failure_repeats_iff {calls : List Call} {call : Call}
    (h : call.act (calls.foldl Call.after {}) = .error e st') :
    let st := calls.foldl Call.after {}
    ((∃ e' st'', call.act st' = .error e' st'') ↔ st' = st) ∧
    (st' ≠ st → ∃ answered type, call.act st' = .ok answered st' ∧
      answered.referencedName? = some type ∧
      ∀ later : List Call, st.catalog.Unfinished (later.foldl Call.after st').catalog type) := by
  intro st
  have hc : st.catalog.Consistent := consistent_foldl_after calls Catalog.consistent_empty
  rcases call.act_abandons.after_error hc h with rfl | ⟨-, a, type, hagain, htype, hunfinished⟩
  · exact ⟨⟨fun _ => rfl, fun _ => ⟨e, _, h⟩⟩, fun hne => absurd rfl hne⟩
  · have hc' : st'.catalog.Consistent := by
      have hgrows := (call.act_growing st.catalog).of_error h
      exact hgrows.consistent hc
    have hne : st' ≠ st := by
      rintro hsame
      rw [hsame, h] at hagain
      cases hagain
    refine ⟨⟨?_, fun hsame => absurd hsame hne⟩, fun _ => ⟨a, type, hagain, htype, fun later => ?_⟩⟩
    · rintro ⟨e', st'', hfails⟩
      rw [hagain] at hfails
      cases hfails
    · exact hunfinished.kept (keeps_foldl_after later hc')

/-- A lamp with a mode that should be a number, and is declared to be "on". -/
def misdeclaredLamp : Call where
  settings := { digest := plainDigest }
  request := .field "lamp"
  node := .ofProperties
    [("mode", .mk { enumeration? := some [.string "on"] } (.scalar .integer))] []
  package := "p"
  context := .root

/-- The lamp is refused the first time, and is a class without members the second time. -/
theorem failure_repeats_iff_lamp :
    let lamp := misdeclaredLamp
    let type : TypeName := { package := "p", name := "Lamp" }
    ∃ e st', lamp.act {} = .error e st' ∧
      e.message = "Malformed schema at lamp/mode: enum value \"on\" is not of type integer" ∧
      lamp.act st' = .ok (.classType type) st' ∧
      (¬ ∃ e' st'', lamp.act st' = .error e' st'') ∧
      Catalog.Unfinished {} st'.catalog type := by
  intro lamp type
  have hmessage : (answer lamp.act {}).mapError GenerationError.message =
      .error "Malformed schema at lamp/mode: enum value \"on\" is not of type integer" := by
    decide +kernel
  have hclass : ((leaves lamp.act {}).catalog.classes.class? type.key).isSome = true := by
    decide +kernel
  have hanswered : (answer lamp.act (leaves lamp.act {})).toOption = some (.classType type) := by
    decide +kernel
  rw [answer] at hmessage
  rw [leaves] at hclass hanswered
  cases hfails : lamp.act {} with
  | ok answered st' =>
    rw [hfails] at hmessage
    cases hmessage
  | error e st' =>
    rw [hfails] at hmessage hclass hanswered
    have hchanged : st' ≠ {} := by
      rintro rfl
      cases hclass
    have hfailsFirst : lamp.act ([].foldl Call.after {}) = .error e st' := hfails
    obtain ⟨hrepeats, hanswers⟩ := failure_repeats_iff hfailsFirst
    obtain ⟨answered, found, hagain, hfound, hunfinished⟩ := hanswers hchanged
    dsimp only at hanswered
    rw [answer, hagain] at hanswered
    cases hanswered
    cases hfound
    exact ⟨e, st', rfl, Except.error.inj hmessage, hagain, fun h => hchanged (hrepeats.mp h),
      hunfinished []⟩

end Resolution

end ThingTypes
