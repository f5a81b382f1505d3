import Mathlib.Data.List.Forall2
import ThingTypes.Proofs.Generation.BaseChains
import ThingTypes.Proofs.Json.Pointer

/-
  A model lists pointers to what its instances may leave out. Pointers are read by the grammar of
  RFC 6901 here, which gives every sequence of tokens one text. An entry of the list is not read: it
  is compared with a text in which the name of a property stands as it is. The two agree for the
  names that need no escape, and for no other name.
-/

namespace ThingTypes

namespace Pointer

/-! ## Pointers by their grammar -/

/-- A reference token as RFC 6901 has it written, and the text that it stands for. -/
inductive Writes : List Char → List Char → Prop
  | nil : Writes [] []
  | unescaped {c : Char} {written token : List Char} (htilde : c ≠ '~') (hslash : c ≠ '/')
      (rest : Writes written token) : Writes (c :: written) (c :: token)
  | tilde {written token : List Char} (rest : Writes written token) :
      Writes ('~' :: '0' :: written) ('~' :: token)
  | slash {written token : List Char} (rest : Writes written token) :
      Writes ('~' :: '1' :: written) ('/' :: token)

/-- The text is a pointer, and the tokens are what it designates. -/
def Designates (pointer : String) (tokens : List String) : Prop :=
  ∃ written, pointer.toList = written.flatMap ('/' :: ·) ∧
    List.Forall₂ Writes written (tokens.map String.toList)

/-- A token is written in one way. -/
theorem writes_iff {written token : List Char} : Writes written token ↔ written = escape token := by
  constructor
  · intro h
    induction h with
    | nil => rfl
    | unescaped htilde hslash _ ih => rw [escape, if_neg htilde, if_neg hslash, ih]
    | tilde _ ih => rw [escape, if_pos rfl, ih]
    | slash _ ih => rw [escape, if_neg (by decide), if_pos rfl, ih]
  · intro h
    subst h
    induction token with
    | nil => exact .nil
    | cons c token ih =>
      unfold escape
      split_ifs with htilde hslash
      · exact htilde ▸ .tilde ih
      · exact hslash ▸ .slash ih
      · exact .unescaped htilde hslash ih

theorem toList_foldl_child (pointer : String) (tokens : List String) :
    (tokens.foldl child pointer).toList =
      pointer.toList ++ (tokens.map fun token => escape token.toList).flatMap ('/' :: ·) := by
  induction tokens generalizing pointer with
  | nil => simp
  | cons token tokens ih =>
    rw [List.foldl_cons, ih, child]
    simp

/-- The one text that designates the tokens is what is written one token after the other. -/
theorem designates_iff {pointer : String} {tokens : List String} :
    Designates pointer tokens ↔ pointer = tokens.foldl child "" := by
  have hwritten : ∀ written, List.Forall₂ Writes written (tokens.map String.toList) ↔
      written = tokens.map fun token => escape token.toList := by
    intro written
    rw [← List.forall₂_eq_eq_eq, List.forall₂_map_right_iff, List.forall₂_map_right_iff]
    simp only [writes_iff]
  have htext : pointer = tokens.foldl child "" ↔
      pointer.toList = (tokens.map fun token => escape token.toList).flatMap ('/' :: ·) := by
    rw [← String.toList_inj, toList_foldl_child]
    rfl
  rw [htext]
  unfold Designates
  simp only [hwritten, exists_eq_right]

/-! ## Names that need no escape -/

theorem length_le_length_escape (cs : List Char) : cs.length ≤ (escape cs).length := by
  induction cs with
  | nil => exact Nat.le_refl _
  | cons c cs ih =>
    unfold escape
    split_ifs <;> simp only [List.length_cons] <;> omega

theorem escape_eq_self_iff {cs : List Char} : escape cs = cs ↔ ∀ c ∈ cs, c ≠ '~' ∧ c ≠ '/' := by
  refine ⟨fun h => ?_, escape_of_plain⟩
  induction cs with
  | nil => simp
  | cons c cs ih =>
    -- an escape makes the text longer, so that it cannot be the same
    have hlength := length_le_length_escape cs
    unfold escape at h
    split_ifs at h with htilde hslash
    · have hlonger := congrArg List.length h
      simp only [List.length_cons] at hlonger
      omega
    · have hlonger := congrArg List.length h
      simp only [List.length_cons] at hlonger
      omega
    · exact List.forall_mem_cons.mpr ⟨⟨htilde, hslash⟩, ih (List.cons.inj h).2⟩

theorem designates_property_iff {pointer name : String} :
    Designates pointer ["properties", name] ↔ pointer = child "/properties" name := by
  have hproperties : child "" "properties" = "/properties" := by decide
  rw [designates_iff, List.foldl_cons, List.foldl_cons, List.foldl_nil, hproperties]

/-- The pointer to a property is the plain text for the names without a mark. -/
theorem child_properties_eq_iff {name : String} :
    child "/properties" name = "/properties/" ++ name ↔
      ∀ c ∈ name.toList, c ≠ '~' ∧ c ≠ '/' := by
  rw [← escape_eq_self_iff, ← String.toList_inj, child]
  simp

end Pointer

namespace ThingModel

/-! ## Optional properties -/

theorem not_mem_requiredProperties_iff {m : ThingModel} {name : String}
    (h : name ∈ m.properties.keys) :
    name ∉ m.requiredProperties ↔ "/properties/" ++ name ∈ m.optional := by
  simp [requiredProperties, isOptionalProperty, h]

theorem mem_optional_mergeAll {pointer : String} (m : ThingModel) (bases : List LocatedModel) :
    pointer ∈ (m.mergeAll bases).optional ↔
      pointer ∈ m.optional ∨ ∃ e ∈ bases, pointer ∈ e.2.optional := by
  induction bases generalizing m with
  | nil => simp [mergeAll]
  | cons e bases ih =>
    have hmerged : pointer ∈ (m.mergeBase e.2).optional ↔
        pointer ∈ m.optional ∨ pointer ∈ e.2.optional := mem_foldl_optional _ _
    rw [mergeAll, List.foldl_cons, ← mergeAll, ih, hmerged]
    simp [or_assoc]

/-- A property is left out of the required ones if its model or one of the bases lists the text
`/properties/` with its name as it is. This agrees with what the listed pointers designate exactly
if nothing in the name needs an escape. -/
theorem leaves_out_designated_iff (name : String) :
    (∀ (m : ThingModel) (bases : List LocatedModel),
      name ∈ (m.mergeAll bases).properties.keys →
      (name ∉ (m.mergeAll bases).requiredProperties ↔
        "/properties/" ++ name ∈ m.optional ∨
          ∃ e ∈ bases, "/properties/" ++ name ∈ e.2.optional)) ∧
    ((∀ m : ThingModel, name ∈ m.properties.keys →
        (name ∉ m.requiredProperties ↔
          ∃ pointer ∈ m.optional, Pointer.Designates pointer ["properties", name])) ↔
      ∀ c ∈ name.toList, c ≠ '~' ∧ c ≠ '/') := by
  have hpointer : ∀ m : ThingModel,
      (∃ pointer ∈ m.optional, Pointer.Designates pointer ["properties", name]) ↔
        Pointer.child "/properties" name ∈ m.optional := by
    intro m
    simp only [Pointer.designates_property_iff, exists_eq_right]
  refine ⟨fun m bases hname => ?_, ?_⟩
  · rw [not_mem_requiredProperties_iff hname, mem_optional_mergeAll]
  · rw [← Pointer.child_properties_eq_iff]
    constructor
    · intro hagree
      -- a model that lists nothing but the pointer to its one property
      let m : ThingModel :=
        { properties := .ofList [(name, .null)], optional := [Pointer.child "/properties" name] }
      have hname : name ∈ m.properties.keys := List.mem_singleton_self name
      have hleft : name ∉ m.requiredProperties :=
        (hagree m hname).mpr ((hpointer m).mpr (List.mem_singleton_self _))
      exact (List.mem_singleton.mp ((not_mem_requiredProperties_iff hname).mp hleft)).symm
    · intro hplain m hname
      rw [hpointer, not_mem_requiredProperties_iff hname, hplain]

end ThingModel

/-- A model with one property, which its list points to. -/
def slashedModel : ThingModel where
  properties := .ofList [("a/b", .object [("type", .string "string")])]
  optional := ["/properties/a~1b"]

/-- The pointer to the property has no effect. -/
theorem leaves_out_designated_iff_slashed :
    Pointer.Designates "/properties/a~1b" ["properties", "a/b"] ∧
      "/properties/a~1b" ∈ slashedModel.optional ∧
      "a/b" ∈ slashedModel.requiredProperties := by
  refine ⟨Pointer.designates_property_iff.mpr (by decide), by decide, ?_⟩
  have hname : "a/b" ∈ (slashedModel.mergeAll []).properties.keys := by decide
  have hleft := (ThingModel.leaves_out_designated_iff "a/b").1 slashedModel [] hname
  by_contra hout
  exact absurd (hleft.mp hout) (by decide)

end ThingTypes
