import ThingTypes.Proofs.Generation.Assembled
import ThingTypes.Proofs.Generation.DigestedTexts

/-
  The enum of an interface and its methods. Both have their constants from the keys of the actions,
  but the enum numbers the names that come twice and the methods do not. So they agree as long as no
  two actions have one constant name.
-/

namespace ThingTypes

open Catalog

/-- Constants with the values of methods are named as the methods say exactly when the names are the
same, one by one. -/
theorem ActionMethod.constants_named_iff {methods : List ActionMethod}
    (hnodup : (methods.map ActionMethod.jsonName).Nodup) {constants : List EnumConstant}
    (hvalues : constants.map EnumConstant.value =
      methods.map fun method => .string method.jsonName) :
    (∀ method ∈ methods, ∀ constant ∈ constants, constant.value = .string method.jsonName →
        constant.name = method.constant) ↔
      constants.map EnumConstant.name = methods.map ActionMethod.constant := by
  induction methods generalizing constants with
  | nil => simp [List.map_eq_nil_iff.mp hvalues]
  | cons method rest ih =>
    obtain ⟨constant, others, rfl⟩ : ∃ constant others, constants = constant :: others := by
      refine List.exists_cons_of_ne_nil ?_
      rintro rfl
      cases hvalues
    obtain ⟨hvalue, hothers⟩ := List.cons.inj hvalues
    obtain ⟨hfresh, hrest⟩ := List.nodup_cons.mp hnodup
    rw [List.map_cons, List.map_cons, List.cons.injEq, ← ih hrest hothers]
    -- The values differ, so the first constant is that of the first method only.
    have hfirst : ∀ method' ∈ rest, constant.value ≠ .string method'.jsonName := by
      intro method' hmem hsame
      rw [hvalue, Json.string.injEq] at hsame
      exact hfresh (hsame ▸ List.mem_map_of_mem hmem)
    have hlater : ∀ constant' ∈ others, constant'.value ≠ .string method.jsonName := by
      intro constant' hmem hsame
      have hvalue' := List.mem_map_of_mem (f := EnumConstant.value) hmem
      rw [hothers, hsame] at hvalue'
      obtain ⟨method', hmem', hname⟩ := List.mem_map.mp hvalue'
      rw [Json.string.injEq] at hname
      exact hfresh (hname ▸ List.mem_map_of_mem hmem')
    simp only [List.forall_mem_cons]
    constructor
    · exact fun h => ⟨h.1.1 hvalue, fun method' hmem => (h.2 method' hmem).2⟩
    · intro h
      exact ⟨⟨fun _ => h.1, fun constant' hmem hsame => absurd hsame (hlater constant' hmem)⟩,
        fun method' hmem => ⟨fun hsame => absurd hsame (hfirst method' hmem), h.2 method' hmem⟩⟩

namespace ActionInterface

/-- The enum has a constant for each method, in order, with the names made distinct; the methods say
how the constants are named, unless two of them say the same. -/
structure EnumLists (i : ActionInterface) (e : EnumDecl) : Prop where
  values : e.constants.map EnumConstant.value = i.methods.map fun method => .string method.jsonName
  names : e.constants.map EnumConstant.name =
    EnumContent.distinctNames [] (i.methods.map ActionMethod.constant)
  named_iff : (∀ method ∈ i.methods, ∀ constant ∈ e.constants,
      constant.value = .string method.jsonName → constant.name = method.constant) ↔
    (i.methods.map ActionMethod.constant).Nodup

theorem Stands.enumLists {digest : Digest} {c : Catalog} {shared : Prop} {i : ActionInterface}
    (h : i.Stands digest c shared) {e : EnumDecl}
    (he : e.constants = EnumContent.constantsFor (i.methods.map ActionMethod.constant)
      (i.methods.map fun method => .string method.jsonName)) : i.EnumLists e := by
  obtain ⟨keys, -, hnodup, hmethods⟩ := h.methods
  have hlength : (i.methods.map ActionMethod.constant).length =
      (i.methods.map fun method => Json.string method.jsonName).length := by simp
  have hvalues : e.constants.map EnumConstant.value = _ :=
    he ▸ EnumContent.values_constantsFor hlength
  have hnames : e.constants.map EnumConstant.name = _ :=
    he ▸ EnumContent.names_constantsFor hlength
  refine ⟨hvalues, hnames, ?_⟩
  rw [ActionMethod.constants_named_iff (hmethods.jsonNames ▸ hnodup) hvalues, hnames,
    EnumContent.distinctNames_eq_self_iff]

end ActionInterface

namespace GeneratedModel

theorem Assembled.actionEnum {digest : Digest} (hdigest : Function.Injective digest)
    {known : SchemaNode → Prop} {model : GeneratedModel} {c : Catalog} {d : ClassDecl}
    (h : model.Assembled digest known c d) {i : ActionInterface} (hi : i ∈ model.interfaces) :
    i.actionEnum.IsTopLevel i.package ∧
    ((∃ e, model.catalog.enums.separate? i.actionEnum.key = some e ∧ i.EnumLists e) ∨
      model.catalog.NestsNamed i.actionEnum.key ∧
        1 < (model.interfaces.map ActionInterface.package).count i.package) := by
  have hstands := h.interfaces i hi
  have hnamed := h.changes.named consistent_empty.toNamed
  refine ⟨hstands.enum_topLevel, ?_⟩
  rw [h.catalog]
  rcases hstands.listed hdigest with ⟨e, he, hconstants⟩ | ⟨hnested, hshared⟩
  · exact .inl ⟨e, he, hstands.enumLists hconstants⟩
  · have hkept : c.Retains (c.addClass d) := .addClass (hnamed.class?_of_free h.free.1)
    exact .inr ⟨hnested.retained hkept, hshared.resolve_left nofun⟩

/-- In every model that is built, every interface has its actions in a top-level enum, with a
constant for each method in the order of the methods, named as the methods say exactly when no two
of them say the same. The exception are interfaces that share their package, where a class nests an
enum that is called like theirs. -/
theorem build_lists_actions {m : Type → Type} [Monad m] [LawfulMonad m] {load : Loader m}
    {o : GenerationOptions} {s : ResolutionSettings} {location package : String}
    (hdigest : DigestsApart load o s location package) :
    Yields (fun result => ∀ model, result = .ok model → ∀ i ∈ model.interfaces,
        i.actionEnum.IsTopLevel i.package ∧
        ((∃ e, model.catalog.enums.separate? i.actionEnum.key = some e ∧ i.EnumLists e) ∨
          model.catalog.NestsNamed i.actionEnum.key ∧
            1 < (model.interfaces.map ActionInterface.package).count i.package))
      (GeneratedModel.build load o s location package) := by
  refine yields_build_of_digestsApart hdigest fun hother hvalid thing model hmodel i hi => ?_
  obtain ⟨c, d, h⟩ := ofThing_assembled thing.within_true hvalid hmodel
  exact h.actionEnum hother hi

end GeneratedModel

/-- Two actions with keys that make one constant name. -/
def dashedActions : List (String × Json) :=
  [("lamp.json", .object [("title", .string "Lamp"),
    ("actions", .object [("a-b", .object []), ("a_b", .object [])])])]

def dashedBuild : Id (Except GenerationError GeneratedModel) :=
  GeneratedModel.build (Loader.ofDocuments dashedActions) {} {} "lamp.json" "p"

/-- The enum tells the two actions apart, and the methods do not. -/
theorem dashedBuild_disagrees : ∃ model i e, dashedBuild = .ok model ∧ i ∈ model.interfaces ∧
    model.catalog.enums.separate? i.actionEnum.key = some e ∧
    e.constants.map EnumConstant.name = ["A_B", "A_B_2"] ∧
    i.methods.map ActionMethod.constant = ["A_B", "A_B"] ∧
    ¬∀ method ∈ i.methods, ∀ constant ∈ e.constants,
      constant.value = .string method.jsonName → constant.name = method.constant := by
  have hrun : (match dashedBuild with
      | .ok model => model.interfaces.map fun i =>
          (i.package, i.methods.map ActionMethod.constant)
      | .error _ => []) = [("p.actions", ["A_B", "A_B"])] := by
    decide +kernel
  have hdigest : GeneratedModel.DigestsApart (Loader.ofDocuments dashedActions : Loader Id) {} {}
      "lamp.json" "p" := GeneratedModel.digestsApart_of_memory (by decide +kernel)
  obtain ⟨proved, hproved⟩ := GeneratedModel.build_lists_actions hdigest
  cases h : dashedBuild with
  | error e => simp [h] at hrun
  | ok model =>
    rw [h] at hrun
    dsimp only at hrun
    obtain ⟨i, hi⟩ : ∃ i, model.interfaces = [i] :=
      List.length_eq_one_iff.mp (by simpa using congrArg List.length hrun)
    rw [hi, List.map_singleton, List.singleton_inj, Prod.mk.injEq] at hrun
    have hmem : i ∈ model.interfaces := by simp [hi]
    rcases (proved.2 model (hproved.trans h) i hmem).2 with ⟨e, he, hlists⟩ | ⟨-, hshared⟩
    · have hnames := hlists.names
      rw [hrun.2] at hnames
      have hnot : ¬(i.methods.map ActionMethod.constant).Nodup := by
        rw [hrun.2]
        decide
      exact ⟨model, i, e, rfl, hmem, he, hnames.trans (by decide), hrun.2,
        fun hnamed => hnot (hlists.named_iff.mp hnamed)⟩
    · simp [hi] at hshared

end ThingTypes
