import ThingTypes.Proofs.Identifier.Recasing
import ThingTypes.Proofs.Resolution.NestedEnums
import ThingTypes.Proofs.Resolution.Repetition

/-
  What types are called when nothing is in their way. A class is named by the class name of its
  hint, which claiming the name makes a class name once more; an enum is named by the class name of
  its hint. So a class and an enum of one hint are called alike exactly if the class name of the
  hint is its own class name.
-/

namespace ThingTypes

open Identifier (className)

/-- Nothing has been declared in the package. -/
def Catalog.IsVacant (c : Catalog) (package : String) : Prop :=
  ∀ name, c.IsFree ⟨package, name⟩

theorem Catalog.isVacant_empty {package : String} : Catalog.IsVacant {} package :=
  fun _ => ⟨rfl, rfl⟩

namespace Catalog.IsVacant

variable {c : Catalog} {package : String}

theorem takenForClass_eq (h : c.IsVacant package) (fingerprint : Fingerprint) :
    c.takenForClass package fingerprint = [] := by
  refine List.eq_nil_iff_forall_not_mem.mpr fun name hmem => ?_
  obtain ⟨htable, hseparate⟩ := h name
  rcases c.mem_takenForClass.mp hmem with hconflict | hother
  · simp [NameTable.hasConflict, htable] at hconflict
  · exact hother hseparate

theorem takenForEnum_eq (h : c.IsVacant package) (fingerprint : Fingerprint) :
    c.takenForEnum package fingerprint = [] := by
  refine List.eq_nil_iff_forall_not_mem.mpr fun name hmem => ?_
  obtain ⟨htable, hseparate⟩ := h name
  rcases c.mem_takenForEnum.mp hmem with hother | ⟨e, he, -⟩
  · exact hother htable
  · rw [hseparate] at he
    cases he

end Catalog.IsVacant

namespace Resolution

variable {s : ResolutionSettings} {site : Site} {field name package : String}
  {fingerprint : Fingerprint} {c : Catalog}

theorem deriveName_alone (policy : Identifier.ClassNaming) (name : String) :
    Identifier.deriveName policy name none [] = name := by
  cases policy <;> simp [Identifier.deriveName, Identifier.compoundName]

theorem Outcome.ofCatalog {α : Type} {f : Catalog → Except GenerationError (α × Catalog)}
    {Q : α → Catalog → Prop} (h : ∀ a c', f c = .ok (a, c') → Q a c') :
    Outcome (Resolution.ofCatalog f) c Q fun _ => True where
  of_run depth := by
    cases hrun : Resolution.ofCatalog f ⟨c, depth⟩ with
    | ok a st =>
      obtain ⟨c', hanswer, rfl⟩ := ofCatalog_eq_ok_iff.mp hrun
      exact h a c' hanswer
    | error e st => trivial

/-- A class that nothing is in the way of gets the class name of what it is to be called. -/
theorem claimedClass_of_vacant (hroot : site.context = .root) (hc : c.IsVacant site.package)
    {slot : ClassSlot} {c' : Catalog}
    (h : claimedClass s name fingerprint site c = .ok (slot, c')) :
    slot.type.name = className name := by
  have hderived : derivedClassName s name fingerprint site c = className name := by
    rw [derivedClassName, hc.takenForClass_eq, hroot]
    exact deriveName_alone _ _
  have hfree : className name ∉ c.takenForClass site.package fingerprint := by
    rw [hc.takenForClass_eq]
    exact List.not_mem_nil
  have hsearch : Identifier.firstFree? (className name) site.context.parentName?
      site.context.feature? (c.takenForClass site.package fingerprint) = some (className name) :=
    Identifier.firstFree?_self hfree
  rw [Identifier.firstFree?] at hsearch
  unfold claimedClass classClaim? at h
  rw [hderived] at h
  split_ifs at h
  rcases c.claimClassName_cases site.package (Identifier.searchCandidates (className name)
      site.context.parentName? site.context.feature? (c.takenForClass site.package fingerprint))
      fingerprint with ⟨-, hclaim⟩ | ⟨found, renamed, hfound, hclaim⟩
  · rw [hclaim] at h
    cases h
  · rw [hsearch, Option.some.injEq] at hfound
    rcases hclaim with ⟨-, hclaim⟩ | ⟨-, hclaim⟩
    all_goals
      rw [hclaim] at h
      cases h
      exact hfound.symm

theorem declareClass_of_vacant (hroot : site.context = .root) (hc : c.IsVacant site.package)
    {node : SchemaNode} {kind : ClassKind} {members : TypeName → ResolveM (ClassDecl → ClassDecl)} :
    Outcome (declareClass s name node kind site members) c
      (fun type _ => type.name = className name) fun _ => True := by
  refine .bind (Q := fun slot _ => slot.type.name = className name) ?_ ?_
  · rw [claimClass_eq]
    exact .ofCatalog fun slot c' hclaimed => claimedClass_of_vacant hroot hc hclaimed
  · rintro (type | type) c' hname
    · refine .bind (.trivially _) fun _ _ _ => ?_
      exact .bind (.trivially _) fun _ _ _ => .bind (.trivially _) fun _ _ _ => .pure hname
    · exact .pure hname

theorem separateEnumName_of_vacant (hroot : site.context = .root) (hc : c.IsVacant site.package) :
    separateEnumName s c name fingerprint site = .ok name := by
  have hderived : derivedEnumName s c name fingerprint site = name := by
    rw [derivedEnumName, hc.takenForEnum_eq, hroot]
    exact deriveName_alone _ _
  refine separateEnumName_eq_ok_iff.mpr (.inl ?_)
  rw [hderived]
  exact ⟨(hc name).1, rfl⟩

/-- What a type is called that a field is resolved to, if nothing is in its way. -/
def IsNamedAfter (field : String) : TypeRef → Prop
  | .classType type => type.name = className (className field)
  | .enumType type => type.name = className field
  | _ => True

theorem declareEnum_of_vacant (hroot : site.context = .root) (hc : c.IsVacant site.package)
    {info : SchemaInfo} {content : EnumContent} {placement : EnumPlacement} :
    Outcome (declareEnum s (some field) info content site placement) c
      (fun type _ => type.name = className field) fun _ => True := by
  have hfound {name found : String} (hname : hintedName? (some field) info.title? = some name)
      (h : separateEnumName s c name content.fingerprint site = .ok found) :
      found = className field := by
    rw [separateEnumName_of_vacant hroot hc, hintedName?_of_hint hname] at h
    cases h
    rfl
  refine declareEnum_outcome trivial ?_ ?_ ?_
  · intro name owner _ _ hparent
    rw [hroot] at hparent
    cases hparent
  · exact fun name found hname _ h _ => hfound hname h
  · exact fun name found hname _ h _ => hfound hname h

theorem typeAt_of_vacant (hroot : site.context = .root) (hc : c.IsVacant site.package)
    (node : SchemaNode) :
    Outcome (typeAt s (some field) node site) c (fun type _ => IsNamedAfter field type)
      fun _ => True := by
  obtain ⟨info, kind⟩ := node
  cases kind with
  | scalar kind =>
    exact typeAt_scalar_outcome trivial (fun _ => trivial) fun _ _ _ _ =>
      declareEnum_of_vacant hroot hc
  | null => exact typeAt_null_outcome trivial trivial
  | array items => exact typeAt_array_outcome trivial (.trivially _)
  | object shape =>
    refine typeAt_object_outcome trivial (fun _ _ _ _ => declareEnum_of_vacant hroot hc)
      (fun _ _ _ _ => .trivially _) fun name hvalues _ hname => ?_
    obtain rfl := hintedName?_of_hint hname
    obtain ⟨kind, members, hclass⟩ := exists_classOf_eq hvalues (partsOf s shape)
    rw [hclass]
    exact declareClass_of_vacant hroot hc

/-- The class name of a text is its own class name exactly if it is letters and numerals and its
words are capitalised as they stand; for a text of ASCII, exactly if no word of one letter stands
before a letter that no second one follows. And for exactly these texts, a class and an enum that
are resolved for a field of that name have one name, where nothing is in their way. -/
theorem className_again_iff (text : String) :
    (className (className text) = className text ↔
      (∀ c ∈ (className text).toList, Unicode.isAlphanumeric c = true) ∧
        ∀ word ∈ Identifier.words (className text).toList, Identifier.capitalize word = word) ∧
    (Identifier.AsciiWords text.toList →
      (className (className text) = className text ↔
        (Identifier.words text.toList).IsChain fun u v => Identifier.sticks u v = false)) ∧
    ∀ {s s' : ResolutionSettings} {node node' : SchemaNode} {package package' : String}
      {st st₁ st' st₁' : ResolutionState} {classType enumType : TypeName},
      st.catalog.IsVacant package → st'.catalog.IsVacant package' →
      resolveField s text node package .root st = .ok (.classType classType) st₁ →
      resolveField s' text node' package' .root st' = .ok (.enumType enumType) st₁' →
      (classType.name = enumType.name ↔ className (className text) = className text) := by
  refine ⟨?_, fun hascii => ?_, ?_⟩
  · rw [Identifier.className_eq_self_iff, Identifier.classChars_eq_self_iff]
  · rw [Identifier.className_again_eq_iff, Identifier.classChars_again_iff_of_ascii hascii]
  · intro s s' node node' package package' st st₁ st' st₁' classType enumType hst hst' hclass henum
    have hname : classType.name = className (className text) :=
      (typeAt_of_vacant rfl hst node).of_ok hclass
    have hname' : enumType.name = className text :=
      (typeAt_of_vacant rfl hst' node').of_ok henum
    rw [hname, hname']

/-- Names for the field of a position are resolved in two packages: an object here, and there one of
some texts. -/
def positionSettings : ResolutionSettings :=
  { placement := .separate, digest := plainDigest }

def objectNode : SchemaNode := .ofProperties [] []

def switchNode : SchemaNode := .mk { enumeration? := some [.string "on"] } (.scalar .string)

/-- For the field `x-y` the class is `Xy` and the enum is `XY`. -/
theorem className_again_iff_position :
    className "x-y" = "XY" ∧ className "XY" = "Xy" ∧
      className (className "battery-level") = className "battery-level" ∧
      ∃ st st' classType enumType,
        resolveField positionSettings "x-y" objectNode "p" .root {} =
          .ok (.classType classType) st ∧
        resolveField positionSettings "x-y" switchNode "q" .root {} =
          .ok (.enumType enumType) st' ∧
        classType.name ≠ enumType.name := by
  obtain ⟨honce, hagain⟩ : className "x-y" = "XY" ∧ className "XY" = "Xy" := by decide +kernel
  have hbattery : Identifier.AsciiWords "battery-level".toList := by decide
  have hposition : Identifier.AsciiWords "x-y".toList := by decide
  refine ⟨honce, hagain, ?_, ?_⟩
  · exact ((className_again_iff "battery-level").2.1 hbattery).mpr (by decide)
  · obtain ⟨classType, st, hclass⟩ : ∃ classType st, resolveField positionSettings "x-y" objectNode
        "p" .root {} = .ok (.classType classType) st := ⟨_, _, rfl⟩
    obtain ⟨enumType, st', henum⟩ : ∃ enumType st', resolveField positionSettings "x-y" switchNode
        "q" .root {} = .ok (.enumType enumType) st' := ⟨_, _, rfl⟩
    refine ⟨st, st', classType, enumType, hclass, henum, fun hsame => ?_⟩
    have hstable := ((className_again_iff "x-y").2.2 Catalog.isVacant_empty Catalog.isVacant_empty
      hclass henum).mp hsame
    exact absurd (((className_again_iff "x-y").2.1 hposition).mp hstable) (by decide)

end Resolution

end ThingTypes
