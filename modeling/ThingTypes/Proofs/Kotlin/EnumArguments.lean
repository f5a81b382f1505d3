import ThingTypes.Proofs.Kotlin.Literals
import ThingTypes.Proofs.Resolution.EnumValues
import ThingTypes.Proofs.Resolution.Labels

/-
  The constructors of enums, and what their constants pass to them. The values of an enum of scalars
  are checked against its type, so only the size of a long number is left open. The records of an
  enum are not checked against its fields: a field has the declared type, or that of the first value
  found, and a later value of another type is printed as a string (`arguments_accepted_iff`).
-/

namespace ThingTypes

namespace Kotlin

/-! ## Parameters -/

/-- A parameter of the constructor of an enum. -/
structure Parameter where
  name : String
  kind : ScalarKind
  /-- Whether `null` may be passed. -/
  optional : Bool

def Parameter.text (p : RenderProfile) (parameter : Parameter) : String :=
  "val " ++ parameter.name ++ ": " ++
    if parameter.optional then nullable (p.scalarType parameter.kind)
    else p.scalarType parameter.kind

/-- Whether an argument may be passed for the parameter. -/
def Parameter.Accepts (parameter : Parameter) (argument : String) : Prop :=
  parameter.optional = true ∧ argument = "null" ∨ IsLiteral parameter.kind argument.toList

/-- The value of a constant, or one parameter for each field of its record. -/
def parameters (e : EnumDecl) : List Parameter :=
  match e.backing with
  | .scalar kind => [⟨"value", kind, false⟩]
  | .object => e.fields.map fun field => ⟨enumParameter field, field.kind, true⟩

/-- What a constant passes for the parameters. -/
def arguments (e : EnumDecl) (value : Json) : List String :=
  match e.backing with
  | .scalar kind => [literal kind value]
  | .object => e.fields.map (recordArgument value)

/-- The name of a constant in documents. -/
def serialText (e : EnumDecl) (constant : EnumConstant) : String :=
  match e.backing with
  | .scalar _ => constant.value.asText
  | .object => constant.name

theorem enumParameters_text (p : RenderProfile) (e : EnumDecl) :
    enumParameters p e = ", ".intercalate ((parameters e).map (Parameter.text p)) := by
  unfold enumParameters parameters
  cases e.backing with
  | scalar kind => rfl
  | object =>
    rw [List.map_map]
    rfl

theorem enumConstant_text (e : EnumDecl) (constant : EnumConstant) :
    enumConstant e constant =
      "@SerialName(" ++ stringLiteral (serialText e constant) ++ ") " ++ constant.name ++ "("
        ++ ", ".intercalate (arguments e constant.value) ++ ")" := by
  unfold enumConstant serialText arguments
  cases e.backing <;> rfl

/-! ## Arguments -/

theorem accepts_literal_iff {kind : ScalarKind} {value : Json} :
    Parameter.Accepts ⟨"value", kind, false⟩ (literal kind value) ↔ fits kind value = true := by
  rw [← isLiteral_literal_iff]
  exact or_iff_right (fun h => Bool.false_ne_true h.1)

/-- A field takes no value, `null`, and whatever fits it. -/
theorem accepts_recordArgument_iff {record : Json} {field : EnumField} {name : String} :
    Parameter.Accepts ⟨name, field.kind, true⟩ (recordArgument record field) ↔
      ∀ value, record.get? field.jsonName = some value → value.isNull = false →
        fits field.kind value = true := by
  unfold recordArgument
  cases record.get? field.jsonName with
  | none => exact iff_of_true (.inl ⟨rfl, rfl⟩) nofun
  | some value =>
    rw [Parameter.Accepts, literal_eq_null_iff, isLiteral_literal_iff]
    cases hnull : value.isNull with
    | true =>
      refine iff_of_true (.inl ⟨rfl, rfl⟩) fun value' hvalue' hpresent => ?_
      cases hvalue'
      rw [hnull] at hpresent
      cases hpresent
    | false =>
      refine (or_iff_right fun h => Bool.false_ne_true h.2).trans ⟨?_, fun h => h value rfl hnull⟩
      rintro hfits _ ⟨⟩ -
      exact hfits

/-- A checked value fits its type, but a whole number may be too long. -/
theorem fits_iff_of_accepts {kind : ScalarKind} {value : Json}
    (h : (ScalarKind.ofJson? value).any kind.accepts = true) :
    fits kind value = true ↔ (kind = .integer → ∀ n, value = Json.int n → n.natAbs < 2 ^ 63) := by
  cases kind with
  | integer =>
    cases value with
    | number n =>
      cases n with
      | integer n => simp [fits, Json.int]
      | real x => cases h
    | _ => cases h
  | string | number | boolean =>
    refine iff_of_true ?_ fun hkind => absurd hkind (by decide)
    cases value with
    | number n => cases n <;> first | rfl | cases h
    | _ => first | rfl | cases h

/-! ## Constants -/

section Constants

variable {e : EnumDecl} {values : List Json}

theorem forall_constants_iff {P : Json → Prop}
    (h : e.constants.map EnumConstant.value = EnumContent.presentValues values) :
    (∀ constant ∈ e.constants, P constant.value) ↔
      ∀ value ∈ values, value.isNull = false → P value := by
  rw [← List.forall_mem_map (f := EnumConstant.value), h, EnumContent.presentValues]
  simp only [List.mem_filter, Bool.not_eq_true', and_imp]

/-- Scalars have been checked, so what is left open is the size of whole numbers. -/
theorem scalars_accepted_iff {kind : ScalarKind} (hbacking : e.backing = .scalar kind)
    (hvalues : e.constants.map EnumConstant.value = EnumContent.presentValues values)
    (haccepts : ∀ value ∈ EnumContent.presentValues values,
      (ScalarKind.ofJson? value).any kind.accepts = true) :
    (∀ constant ∈ e.constants,
        List.Forall₂ Parameter.Accepts (parameters e) (arguments e constant.value)) ↔
      (e.backing = .scalar .integer → ∀ n, Json.int n ∈ values → n.natAbs < 2 ^ 63) := by
  have hargument (value : Json) :
      List.Forall₂ Parameter.Accepts (parameters e) (arguments e value) ↔
        fits kind value = true := by
    unfold parameters arguments
    rw [hbacking]
    exact List.forall₂_cons.trans ((and_iff_left .nil).trans accepts_literal_iff)
  simp only [hargument]
  rw [forall_constants_iff (P := fun value => fits kind value = true) hvalues, hbacking]
  constructor
  · rintro hfits ⟨⟩ n hmem
    exact of_decide_eq_true (hfits _ hmem rfl)
  · intro hlong value hmem hpresent
    have hchecked := haccepts value (List.mem_filter.mpr ⟨hmem, by rw [hpresent]; rfl⟩)
    refine (fits_iff_of_accepts hchecked).mpr ?_
    rintro rfl n rfl
    exact hlong rfl n hmem

/-- Records have not been checked against the fields. -/
theorem records_accepted_iff (hbacking : e.backing = .object)
    (hvalues : e.constants.map EnumConstant.value = EnumContent.presentValues values) :
    (∀ constant ∈ e.constants,
        List.Forall₂ Parameter.Accepts (parameters e) (arguments e constant.value)) ↔
      ∀ record ∈ values, ∀ field ∈ e.fields, ∀ value,
        record.get? field.jsonName = some value → value.isNull = false →
          fits field.kind value = true := by
  have hargument (record : Json) :
      List.Forall₂ Parameter.Accepts (parameters e) (arguments e record) ↔
        ∀ field ∈ e.fields, ∀ value, record.get? field.jsonName = some value →
          value.isNull = false → fits field.kind value = true := by
    unfold parameters arguments
    rw [hbacking]
    simp only [List.forall₂_map_left_iff, List.forall₂_map_right_iff, List.forall₂_same,
      accepts_recordArgument_iff]
  refine (forall_constants_iff
    (P := fun record => List.Forall₂ Parameter.Accepts (parameters e) (arguments e record))
    hvalues).trans ?_
  simp only [hargument]
  refine forall₂_congr fun record _ => ⟨fun h field hfield value hvalue => ?_, fun h _ => h⟩
  -- What has members is not null.
  have hpresent : record.isNull = false := by
    cases record with
    | null => cases hvalue
    | _ => rfl
  exact h hpresent field hfield value hvalue

end Constants

/-- The arguments that the constants of an enum pass are literals of the types of its parameters
exactly if whole numbers are long ones, and what a record has for a field fits the field. -/
theorem arguments_accepted_iff {digest : Digest} {values : List Json} {path : String}
    {content : EnumContent}
    (h : (∃ kind, EnumContent.ofScalars digest kind values path = .ok content) ∨
      ∃ properties, EnumContent.ofRecords digest properties values path = .ok content)
    (p : RenderProfile) (name : String) (info : SchemaInfo) (package : String)
    (owner? : Option String) :
    let e := Resolution.enumDecl name info content package owner?
    enumParameters p e = ", ".intercalate ((parameters e).map (Parameter.text p)) ∧
      (∀ constant ∈ e.constants, enumConstant e constant =
        "@SerialName(" ++ stringLiteral (serialText e constant) ++ ") " ++ constant.name ++ "("
          ++ ", ".intercalate (arguments e constant.value) ++ ")") ∧
      ((∀ constant ∈ e.constants,
          List.Forall₂ Parameter.Accepts (parameters e) (arguments e constant.value)) ↔
        (e.backing = .scalar .integer → ∀ n, Json.int n ∈ values → n.natAbs < 2 ^ 63) ∧
          ∀ record ∈ values, ∀ field ∈ e.fields, ∀ value,
            record.get? field.jsonName = some value → value.isNull = false →
              fits field.kind value = true) := by
  intro e
  refine ⟨enumParameters_text p e, fun constant _ => enumConstant_text e constant, ?_⟩
  rcases h with ⟨kind, h⟩ | ⟨properties, h⟩
  · obtain ⟨hvalues, hbacking, hfields, -⟩ := EnumContent.ofScalars_eq_ok h
    have hnone : e.fields = [] := hfields
    rw [scalars_accepted_iff (e := e) hbacking hvalues (EnumContent.accepts_of_scalars h), hnone]
    exact (and_iff_left nofun).symm
  · obtain ⟨hvalues, hbacking, -⟩ := EnumContent.ofRecords_eq_ok h
    have hobject : e.backing = .object := hbacking
    rw [records_accepted_iff (e := e) hbacking hvalues, hobject]
    exact (and_iff_right nofun).symm

/-- The modes of a lamp, one of which has a text where the other one has a number. -/
def lampModes : List Json :=
  [.object [("name", .string "eco"), ("watts", .int 5)],
    .object [("name", .string "full"), ("watts", .string "max")]]

/-- The text is passed for a whole number. -/
theorem arguments_accepted_iff_lamp :
    ∃ content, EnumContent.ofRecords plainDigest [] lampModes "Mode" = .ok content ∧
      let e := Resolution.enumDecl "Mode" {} content "p" none
      (parameters e).map (Parameter.text {}) = ["val nameValue: String?", "val watts: Long?"] ∧
      e.constants.map (arguments e ·.value) = [["\"eco\"", "5L"], ["\"full\"", "\"max\""]] ∧
      ¬ ∀ constant ∈ e.constants,
        List.Forall₂ Parameter.Accepts (parameters e) (arguments e constant.value) := by
  have hfields : (EnumContent.ofRecords plainDigest [] lampModes "Mode").toOption.map
      EnumContent.fields = some [⟨"name", "name", .string⟩, ⟨"watts", "watts", .integer⟩] := by
    decide +kernel
  cases hcontent : EnumContent.ofRecords plainDigest [] lampModes "Mode" with
  | error e =>
    rw [hcontent] at hfields
    cases hfields
  | ok content =>
    rw [hcontent] at hfields
    have hfields : content.fields =
        [⟨"name", "name", .string⟩, ⟨"watts", "watts", .integer⟩] := Option.some.inj hfields
    obtain ⟨hvalues, hbacking, -⟩ := EnumContent.ofRecords_eq_ok hcontent
    have haccepted :=
      (arguments_accepted_iff (.inr ⟨[], hcontent⟩) {} "Mode" {} "p" none).2.2
    refine ⟨content, rfl, ?_, ?_, ?_⟩
    · simp only [parameters, Resolution.enumDecl, hbacking, hfields]
      decide +kernel
    · have hrecords : content.constants.map EnumConstant.value = lampModes := hvalues
      have harguments := congrArg (List.map fun record =>
        content.fields.map (recordArgument record)) hrecords
      rw [List.map_map, hfields] at harguments
      simp only [arguments, Resolution.enumDecl, hbacking, hfields]
      exact harguments.trans (by decide +kernel)
    · rw [haccepted]
      rintro ⟨-, hfits⟩
      have hmisfit : fits .integer (.string "max") = true :=
        hfits _ (List.mem_of_mem_tail List.mem_cons_self) ⟨"watts", "watts", .integer⟩
          (by simp [Resolution.enumDecl, hfields]) (.string "max") rfl rfl
      cases hmisfit

end Kotlin

end ThingTypes
