import ThingTypes.Proofs.Json.Sorted
import ThingTypes.Resolution.EnumContent
import Mathlib.Data.List.Forall2

/-
  The values of an enum. Its constants have exactly the declared values that are not null, in their
  order; a record is never null. The fingerprint tells enums of other values apart.
-/

namespace ThingTypes

/-- What a step accepts one by one, it accepts in a row. -/
theorem forall₂_of_mapM_ok {α β ε : Type} {f : α → Except ε β} {l : List α} {l' : List β}
    (h : l.mapM f = .ok l') : List.Forall₂ (fun a b => f a = .ok b) l l' := by
  induction l generalizing l' with
  | nil =>
    cases h
    exact .nil
  | cons a l ih =>
    rw [List.mapM_cons] at h
    cases ha : f a with
    | error e =>
      rw [ha] at h
      cases h
    | ok b =>
      cases hl : l.mapM f with
      | error e =>
        rw [ha, hl] at h
        cases h
      | ok bs =>
        rw [ha, hl] at h
        cases h
        exact .cons ha (ih hl)

theorem mapM_ok_of_forall₂ {α β ε : Type} {f : α → Except ε β} {l : List α} {l' : List β}
    (h : List.Forall₂ (fun a b => f a = .ok b) l l') : l.mapM f = .ok l' := by
  induction h with
  | nil => rfl
  | cons ha _ ih =>
    rw [List.mapM_cons, ha, ih]
    rfl

theorem EnumBacking.typeName_injective :
    Function.Injective EnumBacking.typeName := by
  intro a b h
  rcases a with (_ | _ | _ | _) | _ <;> rcases b with (_ | _ | _ | _) | _ <;>
    first | rfl | simp [EnumBacking.typeName, ScalarKind.typeName] at h

/-- The key of a field in records, and its type. -/
def EnumField.jsonKind (field : EnumField) : String × ScalarKind :=
  (field.jsonName, field.kind)

namespace EnumContent

/-- The declared values that make constants. -/
def presentValues (values : List Json) : List Json :=
  values.filter (!·.isNull)

theorem length_distinctNames (names : List String) :
    ∀ used, (distinctNames used names).length = names.length := by
  induction names with
  | nil => exact fun _ => rfl
  | cons name names ih =>
    intro used
    rw [distinctNames, List.length_cons, ih, List.length_cons]

theorem values_zipWith (names : List String) (values : List Json)
    (h : names.length = values.length) :
    (List.zipWith EnumConstant.mk names values).map EnumConstant.value = values := by
  induction names generalizing values with
  | nil => cases values <;> simp at h ⊢
  | cons name names ih =>
    cases values with
    | nil => simp at h
    | cons value values => simp [ih values (Nat.succ.inj h)]

/-- Each value has its constant. -/
theorem values_constantsFor {labels : List String} {values : List Json}
    (h : labels.length = values.length) :
    (constantsFor labels values).map EnumConstant.value = values :=
  values_zipWith _ values (by rw [length_distinctNames, h])

variable {digest : Digest} {values : List Json} {path : String} {content : EnumContent}

theorem checkScalar_eq_ok {kind : ScalarKind} {value value' : Json}
    (h : checkScalar kind path value = .ok value') :
    (ScalarKind.ofJson? value).any kind.accepts = true ∧ value' = value := by
  unfold checkScalar at h
  split at h <;> cases h
  exact ⟨by assumption, rfl⟩

theorem recordMembers_eq_ok {value : Json} {members : List (String × Json)}
    (h : recordMembers path value = .ok members) : value.isNull = false := by
  cases value <;> first | rfl | cases h

/-- Records are all present. -/
theorem presentValues_of_records {records : List (List (String × Json))}
    (h : values.mapM (recordMembers path) = .ok records) : presentValues values = values := by
  have hall : ∀ value ∈ values, value.isNull = false := by
    have hrecords := forall₂_of_mapM_ok h
    clear h
    induction hrecords with
    | nil => nofun
    | cons hvalue _ ih =>
      exact List.forall_mem_cons.mpr ⟨recordMembers_eq_ok hvalue, ih⟩
  exact List.filter_eq_self.mpr fun value hmem => by rw [hall value hmem]; rfl

/-- What an enum of scalars is made of. -/
theorem ofScalars_inv {kind : ScalarKind} (h : ofScalars digest kind values path = .ok content) :
    (∀ value ∈ presentValues values, (ScalarKind.ofJson? value).any kind.accepts = true) ∧
      content =
        { backing := .scalar kind
          constants := constantsFor
            ((presentValues values).map fun value => Identifier.constantName value.asText)
            (presentValues values)
          fingerprint := .ofJson digest (description (.scalar kind) [] values) } := by
  unfold ofScalars at h
  cases hpresent : (values.filter (!·.isNull)).mapM (checkScalar kind path) with
  | error e =>
    rw [hpresent] at h
    cases h
  | ok present =>
    rw [hpresent] at h
    cases h
    have hchecked := forall₂_of_mapM_ok hpresent
    have hsame := hchecked.imp fun _ _ h => (checkScalar_eq_ok h).2.symm
    rw [List.forall₂_eq_eq_eq] at hsame
    subst hsame
    refine ⟨?_, rfl⟩
    exact ((List.forall₂_and_left _ _).mp
      (hchecked.imp fun _ _ h => ⟨(checkScalar_eq_ok h).1, h⟩)).1

/-- Each constant of an enum of scalars has a value of its type. -/
theorem accepts_of_scalars {kind : ScalarKind}
    (h : ofScalars digest kind values path = .ok content) :
    ∀ value ∈ presentValues values, (ScalarKind.ofJson? value).any kind.accepts = true :=
  (ofScalars_inv h).1

/-- An enum of scalars. -/
theorem ofScalars_eq_ok {kind : ScalarKind}
    (h : ofScalars digest kind values path = .ok content) :
    content.constants.map EnumConstant.value = presentValues values ∧
      content.backing = .scalar kind ∧ content.fields = [] ∧
      content.fingerprint = .ofJson digest (description (.scalar kind) [] values) := by
  obtain ⟨-, rfl⟩ := ofScalars_inv h
  exact ⟨values_constantsFor (List.length_map _), rfl, rfl, rfl⟩

/-- What an enum of records is made of. -/
theorem ofRecords_inv {properties : List (String × SchemaNode)}
    (h : ofRecords digest properties values path = .ok content) :
    ∃ records fields, values.mapM (recordMembers path) = .ok records ∧
      content =
        { backing := .object
          fields
          constants := constantsFor (records.mapIdx recordName) values
          fingerprint := .ofJson digest (description .object fields values) } := by
  unfold ofRecords at h
  cases hdeclared : properties.mapM (declaredField path) with
  | error e =>
    rw [hdeclared] at h
    cases h
  | ok declared =>
    cases hrecords : values.mapM (recordMembers path) with
    | error e =>
      rw [hdeclared, hrecords] at h
      cases h
    | ok records =>
      rw [hdeclared, hrecords] at h
      by_cases hempty : declared.isEmpty = true
      · simp only [bind, Except.bind, hempty, if_true] at h
        cases hfields : inferFields path [] records.flatten with
        | error e =>
          rw [hfields] at h
          cases h
        | ok fields =>
          rw [hfields] at h
          cases h
          exact ⟨records, fields, rfl, rfl⟩
      · simp only [bind, Except.bind, hempty] at h
        cases h
        exact ⟨records, declared, rfl, rfl⟩

/-- Each record has its constant. -/
theorem values_of_records {properties : List (String × SchemaNode)}
    (h : ofRecords digest properties values path = .ok content) :
    content.constants.map EnumConstant.value = values := by
  obtain ⟨records, fields, hrecords, rfl⟩ := ofRecords_inv h
  refine values_constantsFor ?_
  rw [List.length_mapIdx, (forall₂_of_mapM_ok hrecords).length_eq]

/-- An enum of records. -/
theorem ofRecords_eq_ok {properties : List (String × SchemaNode)}
    (h : ofRecords digest properties values path = .ok content) :
    content.constants.map EnumConstant.value = presentValues values ∧
      content.backing = .object ∧
      content.fingerprint = .ofJson digest (description .object content.fields values) := by
  have hvalues := values_of_records h
  obtain ⟨records, fields, hrecords, rfl⟩ := ofRecords_inv h
  rw [presentValues_of_records hrecords]
  exact ⟨hvalues, rfl, rfl⟩

/-! ## Fingerprints -/

/-- The content of an enum of the values. -/
structure IsOf (digest : Digest) (values : List Json) (content : EnumContent) : Prop where
  constants_eq : content.constants.map EnumConstant.value = presentValues values
  fingerprint_eq : ∃ fields, content.fingerprint =
    .ofJson digest (description content.backing fields values)

theorem IsOf.sorted_constants_eq (h : content.IsOf digest values) :
    content.constants.map (·.value.sorted) = (presentValues values).map Json.sorted := by
  rw [← h.constants_eq, List.map_map]
  rfl

theorem isOf_of_scalars {kind : ScalarKind} (h : ofScalars digest kind values path = .ok content) :
    content.IsOf digest values ∧ content.backing = .scalar kind := by
  obtain ⟨hconstants, hbacking, _, hfingerprint⟩ := ofScalars_eq_ok h
  exact ⟨⟨hconstants, [], by rw [hfingerprint, hbacking]⟩, hbacking⟩

theorem isOf_of_records {properties : List (String × SchemaNode)}
    (h : ofRecords digest properties values path = .ok content) :
    content.IsOf digest values ∧ content.backing = .object := by
  obtain ⟨hconstants, hbacking, hfingerprint⟩ := ofRecords_eq_ok h
  exact ⟨⟨hconstants, _, by rw [hfingerprint, hbacking]⟩, hbacking⟩

/-- Which values are present does not depend on the order of members. -/
theorem map_sorted_presentValues (values : List Json) :
    (presentValues values).map Json.sorted = (values.map Json.sorted).filter (!·.isNull) := by
  rw [List.filter_map, presentValues]
  congr 1
  refine List.filter_congr fun value _ => ?_
  cases value <;> rfl

theorem sorted_description (backing : EnumBacking) (fields : List EnumField) (values : List Json) :
    (description backing fields values).sorted = .object [
      ("backing", .string backing.typeName),
      ("fields", .array (fields.map fun f => Json.strings [f.jsonName, f.kind.typeName])),
      ("values", .array (values.map Json.sorted))] := by
  have hfields : (fields.map fun f => Json.strings [f.jsonName, f.kind.typeName]).map Json.sorted =
      fields.map fun f => Json.strings [f.jsonName, f.kind.typeName] := by
    rw [List.map_map]
    exact List.map_congr_left fun f _ => Json.sorted_strings _
  rw [description, Json.sorted, Json.sortedMembers_eq]
  have hbacking : textLE "backing" "fields" = true := by decide
  have hfieldsFirst : textLE "fields" "values" = true := by decide
  simp [Json.sorted, Json.sortedItems_eq, hfields, sortBy, insertSorted, Json.memberLE, hbacking,
    hfieldsFirst]

/-- Two descriptions are written alike if backing, fields and values are the same: the names that
fields have in the target language do not count, and neither does the order of members. -/
theorem canonical_description_eq_iff {backing backing' : EnumBacking}
    {fields fields' : List EnumField} {values values' : List Json} :
    (description backing fields values).canonical =
        (description backing' fields' values').canonical ↔
      backing = backing' ∧ fields.map EnumField.jsonKind = fields'.map EnumField.jsonKind ∧
        values.map Json.sorted = values'.map Json.sorted := by
  have htext : Function.Injective fun field : String × ScalarKind =>
      Json.strings [field.1, field.2.typeName] := by
    rintro ⟨name, kind⟩ ⟨name', kind'⟩ h
    have hboth : name = name' ∧ kind.typeName = kind'.typeName := by simpa [Json.strings] using h
    rw [hboth.1, EnumBacking.scalar.inj (EnumBacking.typeName_injective hboth.2)]
  have hfields (fields : List EnumField) :
      (fields.map fun f => Json.strings [f.jsonName, f.kind.typeName]) =
        (fields.map EnumField.jsonKind).map fun field =>
          Json.strings [field.1, field.2.typeName] := by
    rw [List.map_map]
    rfl
  rw [Json.canonical_eq_iff, sorted_description, sorted_description, hfields, hfields]
  simp only [Json.object.injEq, List.cons.injEq, Prod.mk.injEq, Json.string.injEq,
    Json.array.injEq, true_and, and_true, EnumBacking.typeName_injective.eq_iff,
    (List.map_injective_iff.mpr htext).eq_iff]

/-- Enums of one fingerprint have the same values, up to the order of members. -/
theorem IsOf.same_of_fingerprint_eq (hdigest : Function.Injective digest) {values' : List Json}
    {content' : EnumContent} (h : content.IsOf digest values) (h' : content'.IsOf digest values')
    (hsame : content.fingerprint = content'.fingerprint) :
    content.backing = content'.backing ∧ values.map Json.sorted = values'.map Json.sorted := by
  obtain ⟨fields, hfingerprint⟩ := h.fingerprint_eq
  obtain ⟨fields', hfingerprint'⟩ := h'.fingerprint_eq
  rw [hfingerprint, hfingerprint', Fingerprint.ofJson, Fingerprint.ofJson, hdigest.eq_iff,
    canonical_description_eq_iff] at hsame
  exact ⟨hsame.1, hsame.2.2⟩

end EnumContent

end ThingTypes
