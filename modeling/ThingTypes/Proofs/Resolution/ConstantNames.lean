import ThingTypes.Proofs.Identifier.Search
import ThingTypes.Proofs.Resolution.EnumNames
import ThingTypes.Proofs.Resolution.Labels

/-
  How the constants of an enum get their names, one after the other. A label that no constant before
  it took for its name is the name. Else its numbered forms are tried from 2 on, and the first that
  is free is the name. Numbered forms and labels share one set of names: a label may be what another
  one was numbered to, and is numbered in its turn.
-/

namespace ThingTypes.EnumContent

/-- The name that comes next for a label: itself, or the first of its numbered forms that is not
used, found in no more tries than there are names used. -/
def IsNextName (used : List String) (label name : String) : Prop :=
  if label ∈ used then
    ∃ i, IsLeast {i | label ++ "_" ++ toString (i + 2) ∉ used} i ∧
      name = label ++ "_" ++ toString (i + 2) ∧ i + 1 ≤ used.length
  else name = label

/-- The numbered forms that are tried in vain are used, and so is the label. -/
theorem tries_le_length {used : List String} {label : String} {i : Nat} (hlabel : label ∈ used)
    (hi : IsLeast {i | label ++ "_" ++ toString (i + 2) ∉ used} i) : i + 1 ≤ used.length := by
  have hvain : Identifier.numbered (label ++ "_") i ⊆ used := by
    intro name hname
    obtain ⟨j, hj, rfl⟩ := List.mem_map.mp hname
    by_contra hfree
    exact absurd (hi.2 hfree) (Nat.not_le.mpr (List.mem_range.mp hj))
  have hother : label ∉ Identifier.numbered (label ++ "_") i := by
    intro hmem
    obtain ⟨j, -, hj⟩ := List.mem_map.mp hmem
    have hlength := congrArg String.length hj
    simp only [String.length_append] at hlength
    have hmark : "_".length = 1 := rfl
    omega
  have hnodup : (label :: Identifier.numbered (label ++ "_") i).Nodup :=
    List.nodup_cons.mpr ⟨hother, List.nodup_range.map (Identifier.numberedName_injective _)⟩
  have hsub : label :: Identifier.numbered (label ++ "_") i ⊆ used :=
    List.cons_subset.mpr ⟨hlabel, hvain⟩
  simpa [Identifier.numbered] using (List.subperm_of_subset hnodup hsub).length_le

theorem isNextName_unusedName (used : List String) (label : String) :
    IsNextName used label (unusedName used label) := by
  unfold IsNextName
  split_ifs with hlabel
  · obtain ⟨i, hi⟩ := Identifier.exists_isLeast_number (label ++ "_") used
    have htries := tries_le_length hlabel hi
    have hfound := Identifier.find?_numbered hi (used.length + 1)
    rw [if_pos (by omega), Identifier.numbered] at hfound
    have hcontains : used.contains label = true := by simpa using hlabel
    have hname : unusedName used label = label ++ "_" ++ toString (i + 2) := by
      rw [unusedName, hcontains]
      exact congrArg (·.getD label) hfound
    exact ⟨i, hi, hname, htries⟩
  · exact unusedName_of_not_mem hlabel

/-- In which order the names are used does not matter. -/
theorem IsNextName.of_perm {used used' : List String} {label name : String}
    (h : IsNextName used label name) (hperm : used.Perm used') : IsNextName used' label name := by
  unfold IsNextName at h ⊢
  simpa only [hperm.mem_iff, hperm.length_eq] using h

/-- The labels get their names one after the other, each with regard to the names before. -/
structure NamedInTurn (labels names : List String) : Prop where
  length_eq : names.length = labels.length
  isNextName : ∀ {k : Nat} {label name : String}, labels[k]? = some label →
    names[k]? = some name → IsNextName (names.take k) label name

theorem isNextName_distinctNames (labels : List String) :
    ∀ (used : List String) {k : Nat} {label name : String}, labels[k]? = some label →
      (distinctNames used labels)[k]? = some name →
      IsNextName (used ++ (distinctNames used labels).take k) label name := by
  induction labels with
  | nil => exact fun _ => nofun
  | cons first labels ih =>
    intro used k label name hlabel hname
    rw [distinctNames] at hname ⊢
    cases k with
    | zero =>
      rw [List.getElem?_cons_zero, Option.some.injEq] at hlabel hname
      rw [List.take_zero, List.append_nil, ← hlabel, ← hname]
      exact isNextName_unusedName used first
    | succ k =>
      rw [List.getElem?_cons_succ] at hlabel hname
      rw [List.take_succ_cons]
      exact (ih (unusedName used first :: used) hlabel hname).of_perm List.perm_middle.symm

theorem namedInTurn_distinctNames (labels : List String) :
    NamedInTurn labels (distinctNames [] labels) where
  length_eq := length_distinctNames labels []
  isNextName hlabel hname := isNextName_distinctNames labels [] hlabel hname

-- the second label is what the third would have been numbered to
example : distinctNames [] ["A", "A_2", "A"] = ["A", "A_2", "A_3"] := by decide

/-! ## Enums -/

variable {digest : Digest} {values : List Json} {path : String} {content : EnumContent}

/-- An enum of scalars has a constant for each value that is not null and an enum of records has one
for each record, in their order. No two have one name; each is named after its label, with the first
number that is free if the label is used, and that is found in no more tries than there are
constants before. -/
theorem constants_distinct_complete (digest : Digest) (values : List Json) (path : String)
    (content : EnumContent) :
    (∀ kind, ofScalars digest kind values path = .ok content →
      content.constants.map EnumConstant.value = values.filter (!·.isNull) ∧
      (content.constants.map EnumConstant.name).Nodup ∧
      NamedInTurn ((values.filter (!·.isNull)).map fun value =>
        Identifier.constantName value.asText) (content.constants.map EnumConstant.name)) ∧
    (∀ properties, ofRecords digest properties values path = .ok content →
      content.constants.map EnumConstant.value = values ∧
      (content.constants.map EnumConstant.name).Nodup ∧
      ∃ records, values.mapM (recordMembers path) = .ok records ∧
        NamedInTurn (records.mapIdx recordName) (content.constants.map EnumConstant.name)) := by
  constructor
  · intro kind h
    obtain ⟨-, rfl⟩ := ofScalars_inv h
    have hlength : ((presentValues values).map fun value =>
        Identifier.constantName value.asText).length = (presentValues values).length :=
      List.length_map _
    have hnames := names_constantsFor hlength
    refine ⟨(ofScalars_eq_ok h).1, ?_, ?_⟩
    · rw [hnames]
      exact nodup_distinctNames _ []
    · rw [hnames]
      exact namedInTurn_distinctNames _
  · intro properties h
    refine ⟨values_of_records h, ?_⟩
    obtain ⟨records, fields, hrecords, rfl⟩ := ofRecords_inv h
    have hlength : (records.mapIdx recordName).length = values.length := by
      rw [List.length_mapIdx, (forall₂_of_mapM_ok hrecords).length_eq]
    rw [names_constantsFor hlength]
    exact ⟨nodup_distinctNames _ [], records, hrecords, namedInTurn_distinctNames _⟩

/-- Texts, one of which reads as another that is numbered. -/
def collidingTexts : List Json :=
  [.string "a", .null, .string "a-2", .string "A"]

/-- Records that are named by such texts, or by nothing. -/
def collidingRecords : List Json :=
  ["a", "a-2", "A"].map (fun label => .object [("name", .string label)]) ++ [.object []]

/-- The two enums are made, and the numbers go past the name that is there already. -/
theorem constants_distinct_complete_colliding :
    ∃ scalars records,
      ofScalars plainDigest .string collidingTexts "#" = .ok scalars ∧
      ofRecords plainDigest [] collidingRecords "#" = .ok records ∧
      scalars.constants.map EnumConstant.name = ["A", "A_2", "A_3"] ∧
      scalars.constants.map EnumConstant.value = [.string "a", .string "a-2", .string "A"] ∧
      records.constants.map EnumConstant.name = ["A", "A_2", "A_3", "VALUE_3"] ∧
      records.constants.map EnumConstant.value = collidingRecords ∧
      (records.constants.map EnumConstant.name).Nodup := by
  obtain ⟨scalars, hscalars, hnames⟩ : ∃ scalars,
      ofScalars plainDigest .string collidingTexts "#" = .ok scalars ∧
        scalars.constants.map EnumConstant.name = ["A", "A_2", "A_3"] := ⟨_, rfl, by decide⟩
  obtain ⟨records, hrecords, hnames'⟩ : ∃ records,
      ofRecords plainDigest [] collidingRecords "#" = .ok records ∧
        records.constants.map EnumConstant.name = ["A", "A_2", "A_3", "VALUE_3"] :=
    ⟨_, rfl, by decide⟩
  obtain ⟨hvalues, -, -⟩ :=
    (constants_distinct_complete plainDigest collidingTexts "#" scalars).1 _ hscalars
  obtain ⟨hvalues', hnodup, -⟩ :=
    (constants_distinct_complete plainDigest collidingRecords "#" records).2 _ hrecords
  exact ⟨scalars, records, hscalars, hrecords, hnames, hvalues, hnames', hvalues', hnodup⟩

end ThingTypes.EnumContent
