import ThingTypes.Proofs.Identifier.Candidates
import ThingTypes.Proofs.Resolution.EnumValues

/-
  The names of the constants of an enum. Each constant is named after the label of its value, with a
  number behind it where the label has come before. So no two constants have one name, and the
  numbers are needed exactly where labels are repeated.
-/

namespace ThingTypes.EnumContent

/-! ## Names that are not used -/

theorem unusedName_of_not_mem {used : List String} {name : String} (h : name ∉ used) :
    unusedName used name = name := by
  simp [unusedName, h]

/-- The numbers never run out. -/
theorem unusedName_not_mem (used : List String) (name : String) : unusedName used name ∉ used := by
  unfold unusedName
  split
  · rename_i h
    simpa using h
  · obtain ⟨found, hfound⟩ := Identifier.exists_find?_numbered (name ++ "_") used
    have hfree := List.find?_some hfound
    rw [Identifier.numbered] at hfound
    dsimp only
    rw [hfound]
    simpa using hfree

theorem distinctNames_not_mem_used (names : List String) :
    ∀ {used : List String}, ∀ name ∈ distinctNames used names, name ∉ used := by
  induction names with
  | nil => exact fun _ => nofun
  | cons name names ih =>
    intro used found hfound
    rw [distinctNames] at hfound
    rcases List.mem_cons.mp hfound with rfl | hfound
    · exact unusedName_not_mem used name
    · exact fun hused => ih found hfound (List.mem_cons_of_mem _ hused)

/-- No two constants have one name. -/
theorem nodup_distinctNames (names : List String) :
    ∀ used : List String, (distinctNames used names).Nodup := by
  induction names with
  | nil => exact fun _ => List.nodup_nil
  | cons name names ih =>
    intro used
    rw [distinctNames, List.nodup_cons]
    refine ⟨fun hmem => ?_, ih _⟩
    exact distinctNames_not_mem_used names _ hmem List.mem_cons_self

/-- Constants are named just as their labels exactly when no label is repeated. -/
theorem distinctNames_eq_self_iff {names : List String} :
    distinctNames [] names = names ↔ names.Nodup := by
  refine ⟨fun h => h ▸ nodup_distinctNames names [], fun h => ?_⟩
  suffices ∀ used : List String, (∀ name ∈ names, name ∉ used) →
      distinctNames used names = names from this [] fun _ _ => nofun
  induction names with
  | nil => exact fun _ _ => rfl
  | cons name names ih =>
    intro used hused
    obtain ⟨hname, hnames⟩ := List.nodup_cons.mp h
    rw [distinctNames, unusedName_of_not_mem (hused name List.mem_cons_self), ih hnames]
    intro other hother
    rw [List.mem_cons, not_or]
    exact ⟨fun heq => hname (heq ▸ hother), hused other (List.mem_cons_of_mem _ hother)⟩

theorem names_zipWith (names : List String) (values : List Json)
    (h : names.length = values.length) :
    (List.zipWith EnumConstant.mk names values).map EnumConstant.name = names := by
  induction names generalizing values with
  | nil => rfl
  | cons name names ih =>
    cases values with
    | nil => simp at h
    | cons value values => simp [ih values (Nat.succ.inj h)]

/-- Each label has its constant. -/
theorem names_constantsFor {labels : List String} {values : List Json}
    (h : labels.length = values.length) :
    (constantsFor labels values).map EnumConstant.name = distinctNames [] labels :=
  names_zipWith _ values (by rw [length_distinctNames, h])

/-! ## Enums of texts -/

variable {digest : Digest} {path path' : String} {content content' : EnumContent}

theorem constants_of_scalars {kind : ScalarKind} {values : List Json}
    (h : ofScalars digest kind values path = .ok content) :
    content.constants = constantsFor
      ((presentValues values).map fun value => Identifier.constantName value.asText)
      (presentValues values) := by
  obtain ⟨-, rfl⟩ := ofScalars_inv h
  rfl

theorem presentValues_strings (keys : List String) :
    presentValues (keys.map Json.string) = keys.map Json.string :=
  List.filter_eq_self.mpr fun value hmem => by
    obtain ⟨key, -, rfl⟩ := List.mem_map.mp hmem
    rfl

/-- An enum of texts has a constant for each of them, named after it. -/
theorem constants_of_strings {keys : List String}
    (h : ofScalars digest .string (keys.map Json.string) path = .ok content) :
    content.constants =
      constantsFor (keys.map Identifier.constantName) (keys.map Json.string) := by
  rw [constants_of_scalars h, presentValues_strings, List.map_map]
  rfl

end ThingTypes.EnumContent
