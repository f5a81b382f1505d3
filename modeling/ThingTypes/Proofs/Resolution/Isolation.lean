import ThingTypes.Proofs.Catalog.Packages
import ThingTypes.Proofs.Resolution.Steps

/-
  Isolation of packages. A resolution that touches certain packages only answers the same, and does
  the same there, whatever there is in other packages, and it leaves those as they are (`Local`). So
  calls that touch other packages can come in between, in any order: each call answers what it
  would without the others, and what has been declared in the end is what either of them declares.
-/

namespace ThingTypes

/-- The part of a state that belongs to some packages. -/
def ResolutionState.within (mine : String → Bool) (st : ResolutionState) : ResolutionState where
  catalog := st.catalog.within mine
  depth := st.depth

theorem ResolutionState.within_eq_iff {mine : String → Bool} {st st' : ResolutionState} :
    st.within mine = st'.within mine ↔
      st.catalog.within mine = st'.catalog.within mine ∧ st.depth = st'.depth := by
  rw [within, within, mk.injEq]

namespace Resolution

variable {α β : Type} {s : ResolutionSettings} {site : Site} {mine : String → Bool}

/-- Runs that look at some packages only: in states that agree on these they answer the same and
leave states that agree on them, and they change nothing elsewhere. -/
structure Local (mine : String → Bool) (x : ResolveM α) (R : α → Prop) : Prop where
  agree : ∀ {st st'}, st.within mine = st'.within mine →
    answer x st = answer x st' ∧ (leaves x st).within mine = (leaves x st').within mine
  frame : ∀ st, (leaves x st).within (!mine ·) = st.within (!mine ·)
  result : ∀ {st a}, answer x st = .ok a → R a

namespace Local

variable {x : ResolveM α} {f : α → ResolveM β} {Q : α → Prop} {R : β → Prop}

theorem pure {a : α} (ha : Q a) : Local mine (Pure.pure a) Q where
  agree h := ⟨rfl, h⟩
  frame _ := rfl
  result h := Except.ok.inj h ▸ ha

theorem throw (e : GenerationError) : Local mine (MonadExcept.throw e : ResolveM α) Q where
  agree h := ⟨rfl, h⟩
  frame _ := rfl
  result h := by cases h

theorem bind (hx : Local mine x Q) (hf : ∀ a, Q a → Local mine (f a) R) :
    Local mine (x >>= f) R where
  agree {st st'} h := by
    obtain ⟨hanswer, hleaves⟩ := hx.agree h
    rw [answer_bind, answer_bind, leaves_bind, leaves_bind, hanswer]
    cases ha : answer x st' with
    | ok a => exact (hf a (hx.result ha)).agree hleaves
    | error e => exact ⟨rfl, hleaves⟩
  frame st := by
    rw [leaves_bind]
    cases ha : answer x st with
    | ok a => exact ((hf a (hx.result ha)).frame _).trans (hx.frame st)
    | error e => exact hx.frame st
  result {st b} h := by
    rw [answer_bind] at h
    cases ha : answer x st with
    | ok a =>
      rw [ha] at h
      exact (hf a (hx.result ha)).result h
    | error e =>
      rw [ha] at h
      cases h

theorem nested (hx : Local mine x Q) : Local mine (nested s site x) Q where
  agree {st st'} h := by
    obtain ⟨hcatalog, hdepth⟩ := ResolutionState.within_eq_iff.mp h
    rw [answer_nested, answer_nested, leaves_nested, leaves_nested, hdepth]
    split_ifs
    · exact ⟨rfl, h⟩
    · have hdeeper : (ResolutionState.mk st.catalog (st'.depth + 1)).within mine =
          (ResolutionState.mk st'.catalog (st'.depth + 1)).within mine :=
        ResolutionState.within_eq_iff.mpr ⟨hcatalog, rfl⟩
      obtain ⟨hanswer, hleaves⟩ := hx.agree hdeeper
      refine ⟨hanswer, ?_⟩
      exact congrArg (fun st : ResolutionState => { st with depth := st.depth - 1 }) hleaves
  frame st := by
    rw [leaves_nested]
    split_ifs
    · rfl
    · exact congrArg (fun st : ResolutionState => { st with depth := st.depth - 1 })
        (hx.frame { st with depth := st.depth + 1 })
  result {st a} h := by
    rw [answer_nested] at h
    split_ifs at h
    exact hx.result h

theorem modifyCatalog {g : Catalog → Catalog}
    (hmine : ∀ c c', c.within mine = c'.within mine → (g c).within mine = (g c').within mine)
    (hother : ∀ c, (g c).within (!mine ·) = c.within (!mine ·)) :
    Local mine (modifyCatalog g) fun _ => True where
  agree h := by
    obtain ⟨hcatalog, hdepth⟩ := ResolutionState.within_eq_iff.mp h
    exact ⟨rfl, ResolutionState.within_eq_iff.mpr ⟨hmine _ _ hcatalog, hdepth⟩⟩
  frame st := ResolutionState.within_eq_iff.mpr ⟨hother st.catalog, rfl⟩
  result _ := trivial

/-- A step that depends on some packages only, and leaves the others as they are. -/
theorem ofCatalog {f : Catalog → Except GenerationError (α × Catalog)}
    (hagree : ∀ c, f (c.within mine) = (f c).map fun r => (r.1, r.2.within mine))
    (hok : ∀ {c a c'}, f c = .ok (a, c') → c'.within (!mine ·) = c.within (!mine ·) ∧ Q a) :
    Local mine (ofCatalog f) Q where
  agree {st st'} h := by
    obtain ⟨hcatalog, hdepth⟩ := ResolutionState.within_eq_iff.mp h
    have hsame := hagree st.catalog
    rw [hcatalog, hagree] at hsame
    unfold answer leaves Resolution.ofCatalog
    generalize f st.catalog = r at hsame ⊢
    generalize f st'.catalog = r' at hsame ⊢
    rcases r with e | ⟨a, c⟩ <;> rcases r' with e' | ⟨a', c'⟩
    · cases hsame
      exact ⟨rfl, h⟩
    · cases hsame
    · cases hsame
    · obtain ⟨rfl, hwithin⟩ := Prod.mk.inj (Except.ok.inj hsame)
      exact ⟨rfl, ResolutionState.within_eq_iff.mpr ⟨hwithin.symm, hdepth⟩⟩
  frame st := by
    unfold leaves Resolution.ofCatalog
    cases hf : f st.catalog with
    | error e => rfl
    | ok r => exact ResolutionState.within_eq_iff.mpr ⟨(hok hf).1, rfl⟩
  result {st a} h := by
    unfold answer Resolution.ofCatalog at h
    cases hf : f st.catalog with
    | error e =>
      rw [hf] at h
      cases h
    | ok r =>
      rw [hf] at h
      cases h
      exact (hok hf).2

theorem claimClass {name : String} {fingerprint : Fingerprint} (hsite : mine site.package) :
    Local mine (claimClass s name fingerprint site)
      fun slot => slot.type.package = site.package := by
  have hother : ¬(!mine site.package) = true := by simp [hsite]
  have hderived (c : Catalog) : derivedClassName s name fingerprint site (c.within mine) =
      derivedClassName s name fingerprint site c := by
    rw [derivedClassName, derivedClassName, c.takenForClass_within hsite]
  have hclaim (c : Catalog) : classClaim? s name fingerprint site (c.within mine) =
      (classClaim? s name fingerprint site c).map fun r => (r.1, r.2.within mine) := by
    rw [classClaim?, classClaim?, hderived, c.takenForClass_within hsite,
      c.claimClassName_within hsite]
  rw [claimClass_eq]
  refine ofCatalog (fun c => ?_) fun {c slot c'} h => ?_
  · rw [claimedClass, claimedClass, hclaim, hderived]
    split_ifs
    · rfl
    · cases classClaim? s name fingerprint site c <;> rfl
  · rw [claimedClass] at h
    split_ifs at h
    cases hc : classClaim? s name fingerprint site c with
    | none =>
      rw [hc] at h
      cases h
    | some r =>
      rw [hc] at h
      cases h
      rw [type_slotOf]
      exact ⟨c.within_claimClassName hother hc, rfl⟩

theorem declareSeparateEnum {name : String} {info : SchemaInfo} {content : EnumContent}
    (hsite : mine site.package) :
    Local mine (declareSeparateEnum s name info content site) fun _ => True := by
  have hother : ¬(!mine site.package) = true := by simp [hsite]
  have hname (c : Catalog) : separateEnumName s (c.within mine) name content.fingerprint site =
      separateEnumName s c name content.fingerprint site := by
    have hregistered (found : String) :
        (c.within mine).classes.isRegistered ⟨site.package, found⟩ =
          c.classes.isRegistered ⟨site.package, found⟩ := c.classes.isRegistered_within hsite
    unfold separateEnumName
    simp only [c.takenForEnum_within hsite, hregistered]
  have hinsert (c : Catalog) (found : String) :
      (c.within mine).enums.insertSeparate (enumDecl found info content site.package none) =
        (c.enums.insertSeparate (enumDecl found info content site.package none)).map
          fun r => (r.1, r.2.within mine) := c.enums.insertSeparate_within hsite
  rw [declareSeparateEnum_eq]
  refine ofCatalog (fun c => ?_) fun {c type c'} h => ⟨?_, trivial⟩
  · rw [withSeparateEnum, withSeparateEnum, hname]
    cases separateEnumName s c name content.fingerprint site with
    | error e => rfl
    | ok found =>
      dsimp only
      rw [hinsert]
      cases c.enums.insertSeparate (enumDecl found info content site.package none) <;> rfl
  · rw [withSeparateEnum] at h
    cases hfound : separateEnumName s c name content.fingerprint site with
    | error e =>
      rw [hfound] at h
      cases h
    | ok found =>
      rw [hfound] at h
      dsimp only at h
      cases he : c.enums.insertSeparate (enumDecl found info content site.package none) with
      | error e =>
        rw [he] at h
        cases h
      | ok r =>
        rw [he] at h
        cases h
        exact Catalog.within_eq_iff.mpr ⟨rfl, c.enums.within_insertSeparate hother he⟩

theorem nestEnum {name : String} {info : SchemaInfo} {content : EnumContent} {owner : TypeName}
    (howner : mine owner.package) :
    Local mine (nestEnum name info content owner) fun _ => True := by
  have hother : ¬(!mine owner.package) = true := by simp [howner]
  refine bind (modifyCatalog (fun c c' h => ?_) fun c => ?_) fun _ _ => pure trivial
  · obtain ⟨hclasses, henums⟩ := Catalog.within_eq_iff.mp h
    refine Catalog.within_eq_iff.mpr ⟨?_, ?_⟩
    · change (c.classes.modifyClass owner.key _).within mine =
        (c'.classes.modifyClass owner.key _).within mine
      rw [ClassCatalog.within_modifyClass, ClassCatalog.within_modifyClass, hclasses]
    · change (c.enums.insertInline _).within mine = (c'.enums.insertInline _).within mine
      rw [c.enums.within_insertInline, c'.enums.within_insertInline, henums]
  · refine Catalog.within_eq_iff.mpr ⟨?_, ?_⟩
    · exact ClassCatalog.within_modifyClass_of_neg _ hother _
    · change (c.enums.insertInline _).within _ = _
      rw [EnumCatalog.within_insertInline]
      exact if_neg hother

/-- The steps of resolutions are local to the packages they are about. -/
theorem stepRules (s : ResolutionSettings) (mine : String → Bool) :
    StepRules s (mine ·) (Local mine) where
  pure := pure
  throw := throw
  bind := bind
  nested := nested
  claimClass := claimClass
  addClass {d} hd := by
    have hother : ¬(!mine d.package) = true := by simp [hd]
    refine modifyCatalog (fun c c' h => ?_) fun c => ?_
    · obtain ⟨hclasses, henums⟩ := Catalog.within_eq_iff.mp h
      refine Catalog.within_eq_iff.mpr ⟨?_, henums⟩
      rw [ClassCatalog.within_insertClass, ClassCatalog.within_insertClass, hclasses]
    · refine Catalog.within_eq_iff.mpr ⟨?_, rfl⟩
      rw [ClassCatalog.within_insertClass, if_neg hother]
  addAlias {a} ha := by
    have hother : ¬(!mine a.package) = true := by simp [ha]
    refine modifyCatalog (fun c c' h => ?_) fun c => ?_
    · obtain ⟨hclasses, henums⟩ := Catalog.within_eq_iff.mp h
      refine Catalog.within_eq_iff.mpr ⟨?_, henums⟩
      rw [ClassCatalog.within_insertAlias, ClassCatalog.within_insertAlias, hclasses]
    · refine Catalog.within_eq_iff.mpr ⟨?_, rfl⟩
      rw [ClassCatalog.within_insertAlias, if_neg hother]
  modifyClass {key f} hkey := by
    have hother : ¬(!mine key.package) = true := by simp [show mine key.package = true from hkey]
    refine modifyCatalog (fun c c' h => ?_) fun c => ?_
    · obtain ⟨hclasses, henums⟩ := Catalog.within_eq_iff.mp h
      refine Catalog.within_eq_iff.mpr ⟨?_, henums⟩
      change (c.classes.modifyClass key f).within mine = (c'.classes.modifyClass key f).within mine
      rw [ClassCatalog.within_modifyClass, ClassCatalog.within_modifyClass, hclasses]
    · exact Catalog.within_eq_iff.mpr ⟨c.classes.within_modifyClass_of_neg hother f, rfl⟩
  declareEnum {hint? info content site placement} hsite _ := by
    unfold Resolution.declareEnum
    split
    · exact throw _
    · cases placement with
      | separate => exact declareSeparateEnum hsite.package
      | inline =>
        cases howner : site.context.parent? with
        | none => exact declareSeparateEnum hsite.package
        | some owner => exact nestEnum (hsite.parent owner howner)

end Local

/-! ## Calls -/

/-- The calls of a run with what each answers. -/
def transcript (st : ResolutionState) : List Call → List (Call × Except GenerationError TypeRef)
  | [] => []
  | call :: calls => (call, answer call.act st) :: transcript (call.after st) calls

/-- The third list is made of the first two, each in its order. -/
inductive Interleaved {α : Type} : List α → List α → List α → Prop where
  | nil : Interleaved [] [] []
  | left {a : α} {as bs cs : List α} : Interleaved as bs cs → Interleaved (a :: as) bs (a :: cs)
  | right {b : α} {as bs cs : List α} : Interleaved as bs cs → Interleaved as (b :: bs) (b :: cs)

theorem Call.after_eq (call : Call) (st : ResolutionState) :
    call.after st = leaves call.act st := by
  unfold after leaves
  cases call.act st <;> rfl

/-- A call looks at the packages that it touches, and changes nothing elsewhere. -/
theorem Call.act_local {call : Call} (h : ∀ p, call.Touches p → mine p) :
    Local mine call.act fun _ => True :=
  Call.of_stepRules (Local.stepRules call.settings mine) h

/-- Calls change nothing in the packages that none of them touches. -/
theorem within_foldl_after {calls : List Call}
    (h : ∀ call ∈ calls, ∀ p, call.Touches p → mine p) (st : ResolutionState) :
    (calls.foldl Call.after st).within (!mine ·) = st.within (!mine ·) := by
  induction calls generalizing st with
  | nil => rfl
  | cons call calls ih =>
    rw [List.foldl_cons, ih fun call hmem => h call (List.mem_cons_of_mem _ hmem), Call.after_eq]
    exact (Call.act_local (h call List.mem_cons_self)).frame st

/-- Calls that are about some packages and calls that are about the others, in any order: both go as
they do on their own. -/
theorem Interleaved.run {as bs cs : List Call} (hcs : Interleaved as bs cs)
    (has : ∀ call ∈ as, ∀ p, call.Touches p → mine p)
    (hbs : ∀ call ∈ bs, ∀ p, call.Touches p → !mine p) {a b c : ResolutionState}
    (ha : c.within mine = a.within mine) (hb : c.within (!mine ·) = b.within (!mine ·)) :
    Interleaved (transcript a as) (transcript b bs) (transcript c cs) ∧
      (cs.foldl Call.after c).within mine = (as.foldl Call.after a).within mine ∧
      (cs.foldl Call.after c).within (!mine ·) = (bs.foldl Call.after b).within (!mine ·) := by
  induction hcs generalizing a b c with
  | nil => exact ⟨.nil, ha, hb⟩
  | @left call as bs cs _ ih =>
    have hlocal := Call.act_local (has call List.mem_cons_self)
    obtain ⟨hanswer, hleaves⟩ := hlocal.agree ha
    obtain ⟨hruns, hfinal⟩ := ih (fun call hmem => has call (List.mem_cons_of_mem _ hmem)) hbs
      hleaves ((hlocal.frame c).trans hb)
    simp only [List.foldl_cons, transcript, Call.after_eq, hanswer]
    refine ⟨?_, hfinal⟩
    exact .left hruns
  | @right call as bs cs _ ih =>
    have hlocal := Call.act_local (hbs call List.mem_cons_self)
    obtain ⟨hanswer, hleaves⟩ := hlocal.agree hb
    have hframe : (leaves call.act c).within mine = c.within mine := by
      simpa only [Bool.not_not] using hlocal.frame c
    obtain ⟨hruns, hfinal⟩ := ih has (fun call hmem => hbs call (List.mem_cons_of_mem _ hmem))
      (hframe.trans ha) hleaves
    simp only [List.foldl_cons, transcript, Call.after_eq, hanswer]
    refine ⟨?_, hfinal⟩
    exact .right hruns

/-- A list whose wanted elements are those of one list and whose others are those of another, which
have nothing else. -/
theorem perm_append_of_filter {l m n : List α} {p : α → Bool} (hm : l.filter p = m.filter p)
    (hn : l.filter (!p ·) = n.filter (!p ·)) (hm' : m.filter (!p ·) = [])
    (hn' : n.filter p = []) : l.Perm (m ++ n) := by
  have hmine : m.filter p = m := List.filter_eq_self.mpr fun a ha => by
    simpa using List.filter_eq_nil_iff.mp hm' a ha
  have hother : n.filter (!p ·) = n := List.filter_eq_self.mpr fun a ha => by
    simpa using List.filter_eq_nil_iff.mp hn' a ha
  have hl := List.filter_append_perm p l
  rw [hm, hn, hmine, hother] at hl
  exact hl.symm

/-- Two sequences of calls that touch no package in common do not notice each other, however they
are interleaved: every call answers what it answers in its own sequence, and the classes, aliases
and top-level enums in the end are those of the one and those of the other. -/
theorem packages_isolated {as bs cs : List Call} (hcs : Interleaved as bs cs)
    (hapart : ∀ a ∈ as, ∀ b ∈ bs, ∀ p, a.Touches p → ¬b.Touches p) :
    let a := (as.foldl Call.after {}).catalog
    let b := (bs.foldl Call.after {}).catalog
    let c := (cs.foldl Call.after {}).catalog
    Interleaved (transcript {} as) (transcript {} bs) (transcript {} cs) ∧
      c.classes.classes.entries.Perm (a.classes.classes.entries ++ b.classes.classes.entries) ∧
      c.classes.aliases.entries.Perm (a.classes.aliases.entries ++ b.classes.aliases.entries) ∧
      c.enums.separate.entries.Perm (a.enums.separate.entries ++ b.enums.separate.entries) := by
  intro a b c
  classical
  let mine (p : String) : Bool := decide (∃ call ∈ as, call.Touches p)
  have has : ∀ call ∈ as, ∀ p, call.Touches p → mine p := fun call hmem p hp =>
    decide_eq_true ⟨call, hmem, hp⟩
  have hbs : ∀ call ∈ bs, ∀ p, call.Touches p → !mine p := fun call hmem p hp => by
    rw [Bool.not_eq_true', decide_eq_false_iff_not]
    rintro ⟨call', hmem', hp'⟩
    exact hapart call' hmem' call hmem p hp' hp
  obtain ⟨hruns, hmine, hother⟩ := hcs.run has hbs rfl rfl
  have ha := within_foldl_after has {}
  have hb := within_foldl_after hbs {}
  simp only [Bool.not_not] at hb
  -- the classes, the aliases and the enums are all kept by the packages that their keys name
  have hperm {δ : Type} (kept : Catalog → OrderedMap TypeKey δ)
      (hkept : ∀ q c, kept (c.within q) = (kept c).filter (q ·.package))
      (hnil : (kept {}).entries = []) :
      (kept c).entries.Perm ((kept a).entries ++ (kept b).entries) := by
    have hfilter {q : String → Bool} {st st' : ResolutionState} (h : st.within q = st'.within q) :
        (kept st.catalog).entries.filter (fun e => q e.1.package) =
          (kept st'.catalog).entries.filter fun e => q e.1.package := by
      have hcatalog := congrArg kept (ResolutionState.within_eq_iff.mp h).1
      rw [hkept, hkept] at hcatalog
      exact congrArg OrderedMap.entries hcatalog
    refine perm_append_of_filter (p := fun e => mine e.1.package) (hfilter hmine) (hfilter hother)
      ((hfilter ha).trans ?_) ((hfilter hb).trans ?_)
    · rw [hnil, List.filter_nil]
    · rw [hnil, List.filter_nil]
  exact ⟨hruns, hperm (·.classes.classes) (fun _ _ => rfl) rfl,
    hperm (·.classes.aliases) (fun _ _ => rfl) rfl, hperm (·.enums.separate) (fun _ _ => rfl) rfl⟩

/-- A lamp with a mode, in a package. -/
def lampIn (package : String) : Call where
  settings := { placement := .separate, digest := plainDigest }
  request := .field "lamp"
  node := .ofProperties
    [("mode", .mk { enumeration? := some [.string "on", .string "off"] } (.scalar .string))] []
  package
  context := .root

/-- The lamps of two rooms have classes and enums of their own, of the same names. -/
theorem packages_isolated_rooms :
    let a := ([lampIn "hall"].foldl Call.after {}).catalog
    let b := ([lampIn "attic"].foldl Call.after {}).catalog
    let c := ([lampIn "attic", lampIn "hall"].foldl Call.after {}).catalog
    Interleaved (transcript {} [lampIn "hall"]) (transcript {} [lampIn "attic"])
        (transcript {} [lampIn "attic", lampIn "hall"]) ∧
      c.classes.classes.entries.Perm (a.classes.classes.entries ++ b.classes.classes.entries) ∧
      a.classes.classes.keys = [⟨"hall", "Lamp"⟩] ∧
      b.classes.classes.keys = [⟨"attic", "Lamp"⟩] := by
  intro a b c
  have hapart : ∀ call ∈ [lampIn "hall"], ∀ call' ∈ [lampIn "attic"], ∀ p, call.Touches p →
      ¬call'.Touches p := by
    simp [Call.Touches, lampIn, NamingContext.root]
  obtain ⟨hruns, hclasses, -, -⟩ := packages_isolated (.right (.left .nil)) hapart
  exact ⟨hruns, hclasses, by decide +kernel, by decide +kernel⟩

end Resolution

end ThingTypes
