import ThingTypes.Proofs.Resolution.Calls
import ThingTypes.Proofs.Resolution.EnumValues
import ThingTypes.Proofs.Schema.Skeleton

/-
  When a type is right for a schema. `Matches` goes through the schema and looks up every type that
  it comes to: a scalar has the primitive of its kind, an array a list of what its items have, and
  an object a class with one field for each property. It does not mind how the classes are called,
  and it goes on to hold when more is declared.
-/

namespace ThingTypes

/-- What can be looked up under the name of a type. -/
structure Declarations where
  class? : TypeName → Option ClassDecl
  alias? : TypeName → Option AliasDecl
  enum? : TypeName → Option EnumDecl

/-- The declarations of a catalog, but for the classes that are underway. -/
def Catalog.declarations (c : Catalog) (underway : List TypeName := []) : Declarations where
  class? name := (c.classes.class? name.key).filter fun d => d.typeName = name ∧ name ∉ underway
  alias? name := (c.classes.alias? name.key).filter (·.typeName = name)
  enum? name := (c.enums.separate? name.key).filter (·.typeName = name)

/-- The field of a property: its key and name, and whether it may be missing or without a value. -/
structure FieldDecl.IsOfProperty (field : FieldDecl) (key : String) (required : Bool) : Prop where
  jsonName_eq : field.jsonName = key
  name_eq : field.name = Identifier.propertyName key
  required_eq : field.required = required
  nullable_eq : field.nullable = (!required || field.type = .unit)

namespace Declarations

variable (D : Declarations)

/-- The type is a class of which `P` holds. -/
def HasClass (type : TypeRef) (P : ClassDecl → Prop) : Prop :=
  ∃ name d, type = .classType name ∧ D.class? name = some d ∧ P d

/-- The type is an alias of a target of which `P` holds. -/
def HasAlias (type : TypeRef) (P : TypeRef → Prop) : Prop :=
  ∃ name a, type = .aliasType name ∧ D.alias? name = some a ∧ P a.target

/-- The type is a top-level enum whose constants have the values that are not null, in their
order. Records are told apart up to the order of their members. -/
def HasEnum (backing : EnumBacking) (values : List Json) (type : TypeRef) : Prop :=
  ∃ name e, type = .enumType name ∧ D.enum? name = some e ∧ e.backing = backing ∧
    e.constants.map (·.value.sorted) = (EnumContent.presentValues values).map Json.sorted

mutual

/-- The type is right for the schema. -/
def Matches : SchemaNode → TypeRef → Prop
  | .mk info (.scalar kind), type =>
    match (SchemaNode.mk info (.scalar kind)).enumValues? with
    | some values => D.HasEnum (.scalar kind) values type
    | none => type = .primitive kind
  | .mk _ .null, type => type = .unit
  | .mk _ (.array items), type => ∃ item, type = .list item ∧ Matches items item
  | .mk info (.object ⟨properties, required, oneOf?, mapValues?, modelRef?⟩), type =>
    match (SchemaNode.mk info
        (.object ⟨properties, required, oneOf?, mapValues?, modelRef?⟩)).enumValues? with
    | some values => D.HasEnum .object values type
    | none =>
      if oneOf?.isSome then
        D.HasClass type fun d => d.kind = .sealed ∧ AlternativesMatch oneOf? d.variants
      else if mapValues?.isSome then
        (∃ value, type = .map value ∧ ValuesMatch mapValues? value) ∨
          D.HasClass type fun d => d.kind = .mapWrapper ∧
            ∃ value, d.mapValue? = some value ∧ ValuesMatch mapValues? value
      else
        D.HasClass type fun d => d.kind = (if properties.isEmpty then .plain else .data) ∧
          ∃ fields, fields.Perm d.fields ∧ FieldsMatch required properties fields

/-- Each property has its field. -/
def FieldsMatch (required : List String) : List (String × SchemaNode) → List FieldDecl → Prop
  | [], fields => fields = []
  | (key, node) :: rest, fields => ∃ field others, fields = field :: others ∧
      field.IsOfProperty key (required.contains key) ∧ Matches node field.type ∧
      FieldsMatch required rest others

/-- Each alternative has its variant. -/
def AlternativesMatch : Option (List SchemaNode) → List TypeRef → Prop
  | none, _ => False
  | some alternatives, variants =>
    match Resolution.soleScalars? alternatives with
    | some members => List.Forall₂ (fun member variant =>
        D.HasAlias variant fun target => target = .primitive member.2) members variants
    | none => VariantsMatch alternatives variants

/-- An alternative is a class, or the target of an alias. -/
def VariantsMatch : List SchemaNode → List TypeRef → Prop
  | [], variants => variants = []
  | node :: rest, variants => ∃ variant others, variants = variant :: others ∧
      ((∃ name, variant = .classType name ∧ Matches node (.classType name)) ∨
        D.HasAlias variant fun target => Matches node target) ∧
      VariantsMatch rest others

def ValuesMatch : Option (MapValues SchemaNode) → TypeRef → Prop
  | none, _ => False
  | some ⟨_, schema⟩, value => Matches schema value

end

-- The equations of the recursion are found here, once; otherwise each of the next lemmas waits
-- for the others to find them.
section

attribute [local simp] Matches

end

variable {D}
variable {D' : Declarations} {info : SchemaInfo} {shape : ObjectSchema} {kind : ScalarKind}
  {type : TypeRef}

/-! ## The cases -/

theorem matches_scalar (h : (SchemaNode.mk info (.scalar kind)).enumValues? = none) :
    D.Matches (.mk info (.scalar kind)) type ↔ type = .primitive kind := by
  rw [Matches, h]

theorem matches_scalar_of_enum {values : List Json}
    (h : (SchemaNode.mk info (.scalar kind)).enumValues? = some values) :
    D.Matches (.mk info (.scalar kind)) type ↔ D.HasEnum (.scalar kind) values type := by
  rw [Matches, h]

theorem matches_null : D.Matches (.mk info .null) type ↔ type = .unit := by
  rw [Matches]

theorem matches_array {items : SchemaNode} :
    D.Matches (.mk info (.array items)) type ↔
      ∃ item, type = .list item ∧ D.Matches items item := by
  rw [Matches]

theorem matches_object_of_enum {values : List Json}
    (h : (SchemaNode.mk info (.object shape)).enumValues? = some values) :
    D.Matches (.mk info (.object shape)) type ↔ D.HasEnum .object values type := by
  cases shape
  rw [Matches, h]

theorem matches_sealed {alternatives : List SchemaNode}
    (h : (SchemaNode.mk info (.object shape)).enumValues? = none)
    (honeOf : shape.oneOf? = some alternatives) :
    D.Matches (.mk info (.object shape)) type ↔
      D.HasClass type fun d => d.kind = .sealed ∧
        D.AlternativesMatch (some alternatives) d.variants := by
  cases shape
  cases honeOf
  rw [Matches, h]
  rfl

theorem matches_map {values : MapValues SchemaNode}
    (h : (SchemaNode.mk info (.object shape)).enumValues? = none) (honeOf : shape.oneOf? = none)
    (hvalues : shape.mapValues? = some values) :
    D.Matches (.mk info (.object shape)) type ↔
      (∃ value, type = .map value ∧ D.Matches values.schema value) ∨
        D.HasClass type fun d => d.kind = .mapWrapper ∧
          ∃ value, d.mapValue? = some value ∧ D.Matches values.schema value := by
  cases shape
  cases honeOf
  cases hvalues
  cases values
  rw [Matches, h]
  simp only [Option.isSome_none, Bool.false_eq_true, if_false, Option.isSome_some, if_true,
    ValuesMatch]

/-- The field is that of the property, and has its type. -/
def FieldMatches (D : Declarations) (required : List String) (property : String × SchemaNode)
    (field : FieldDecl) : Prop :=
  field.IsOfProperty property.1 (required.contains property.1) ∧ D.Matches property.2 field.type

/-- The alternative is a class, or the target of an alias. -/
def VariantMatches (D : Declarations) (node : SchemaNode) (variant : TypeRef) : Prop :=
  (∃ name, variant = .classType name ∧ D.Matches node (.classType name)) ∨
    D.HasAlias variant fun target => D.Matches node target

theorem fieldsMatch_iff {required : List String} {properties : List (String × SchemaNode)} :
    ∀ {fields : List FieldDecl}, D.FieldsMatch required properties fields ↔
      List.Forall₂ (D.FieldMatches required) properties fields := by
  induction properties with
  | nil =>
    intro fields
    rw [FieldsMatch, List.forall₂_nil_left_iff]
  | cons property rest ih =>
    intro fields
    rw [FieldsMatch, List.forall₂_cons_left_iff]
    constructor
    · rintro ⟨field, others, rfl, hfield, htype, hrest⟩
      exact ⟨field, others, ⟨hfield, htype⟩, ih.mp hrest, rfl⟩
    · rintro ⟨field, others, ⟨hfield, htype⟩, hrest, rfl⟩
      exact ⟨field, others, rfl, hfield, htype, ih.mpr hrest⟩

theorem matches_data (h : (SchemaNode.mk info (.object shape)).enumValues? = none)
    (honeOf : shape.oneOf? = none) (hvalues : shape.mapValues? = none) :
    D.Matches (.mk info (.object shape)) type ↔
      D.HasClass type fun d => d.kind = (if shape.properties.isEmpty then .plain else .data) ∧
        ∃ fields, fields.Perm d.fields ∧
          List.Forall₂ (D.FieldMatches shape.required) shape.properties fields := by
  cases shape
  cases honeOf
  cases hvalues
  rw [Matches, h]
  simp only [Option.isSome_none, Bool.false_eq_true, if_false, fieldsMatch_iff]

theorem alternativesMatch_of_scalars {alternatives : List SchemaNode} {variants : List TypeRef}
    {members : List (String × ScalarKind)}
    (h : Resolution.soleScalars? alternatives = some members) :
    D.AlternativesMatch (some alternatives) variants ↔
      List.Forall₂ (fun member variant => D.HasAlias variant fun target =>
        target = .primitive member.2) members variants := by
  rw [AlternativesMatch, h]

theorem alternativesMatch_iff {alternatives : List SchemaNode} {variants : List TypeRef}
    (h : Resolution.soleScalars? alternatives = none) :
    D.AlternativesMatch (some alternatives) variants ↔
      List.Forall₂ D.VariantMatches alternatives variants := by
  rw [AlternativesMatch, h]
  clear h
  induction alternatives generalizing variants with
  | nil => simp only [VariantsMatch, List.forall₂_nil_left_iff]
  | cons node rest ih =>
    simp only [VariantsMatch, List.forall₂_cons_left_iff] at ih ⊢
    constructor
    · rintro ⟨variant, others, rfl, hvariant, hrest⟩
      exact ⟨variant, others, hvariant, ih.mp hrest, rfl⟩
    · rintro ⟨variant, others, hvariant, hrest, rfl⟩
      exact ⟨variant, others, rfl, hvariant, ih.mpr hrest⟩

/-! ## More declarations, and schemas of one shape -/

/-- Everything declared stays declared; classes may get more parents and nested enums. -/
structure Extends (D D' : Declarations) : Prop where
  class?_eq : ∀ {name d}, D.class? name = some d → ∃ d', D'.class? name = some d' ∧ d.GrowsTo d'
  alias?_eq : ∀ {name a}, D.alias? name = some a → D'.alias? name = some a
  enum?_eq : ∀ {name e}, D.enum? name = some e → D'.enum? name = some e

theorem Extends.refl (D : Declarations) : D.Extends D where
  class?_eq {_ d} h := ⟨d, h, .refl d⟩
  alias?_eq h := h
  enum?_eq h := h

theorem HasClass.mono (hD : D.Extends D') {P P' : ClassDecl → Prop} (h : D.HasClass type P)
    (hP : ∀ d d', d.GrowsTo d' → P d → P' d') : D'.HasClass type P' := by
  obtain ⟨name, d, htype, hd, hPd⟩ := h
  obtain ⟨d', hd', hgrow⟩ := hD.class?_eq hd
  exact ⟨name, d', htype, hd', hP d d' hgrow hPd⟩

theorem HasAlias.mono (hD : D.Extends D') {P P' : TypeRef → Prop} (h : D.HasAlias type P)
    (hP : ∀ target, P target → P' target) : D'.HasAlias type P' := by
  obtain ⟨name, a, htype, ha, hPa⟩ := h
  exact ⟨name, a, htype, hD.alias?_eq ha, hP a.target hPa⟩

theorem HasEnum.mono (hD : D.Extends D') {backing : EnumBacking} {values values' : List Json}
    (hvalues : values.map Json.sorted = values'.map Json.sorted)
    (h : D.HasEnum backing values type) : D'.HasEnum backing values' type := by
  obtain ⟨name, e, htype, he, hbacking, hconstants⟩ := h
  refine ⟨name, e, htype, hD.enum?_eq he, hbacking, ?_⟩
  rw [hconstants, EnumContent.map_sorted_presentValues, hvalues,
    ← EnumContent.map_sorted_presentValues]

end Declarations

theorem isEmpty_eq_of_length_eq {α β : Type} {l : List α} {m : List β}
    (h : l.length = m.length) : l.isEmpty = m.isEmpty := by
  rw [Bool.eq_iff_iff, List.isEmpty_iff_length_eq_zero, List.isEmpty_iff_length_eq_zero, h]

theorem exists_of_rel {α β : Type} {R : α → β → Prop} {a? : Option α} {b? : Option β} {a : α}
    (h : Option.Rel R a? b?) (ha : a? = some a) : ∃ b, b? = some b ∧ R a b := by
  cases h with
  | none => cases ha
  | some h =>
    cases ha
    exact ⟨_, rfl, h⟩

theorem none_of_rel {α β : Type} {R : α → β → Prop} {a? : Option α} {b? : Option β}
    (h : Option.Rel R a? b?) (ha : a? = none) : b? = none := by
  cases h with
  | none => rfl
  | some _ => cases ha

theorem forall₂_of_common {α β γ : Type} {R : α → β → Prop} {S : α → γ → Prop} {T : β → γ → Prop}
    {l : List α} {m : List β} {n : List γ} (h : ∀ a ∈ l, ∀ b c, R a b → S a c → T b c)
    (hR : List.Forall₂ R l m) (hS : List.Forall₂ S l n) : List.Forall₂ T m n := by
  induction hR generalizing n with
  | nil =>
    cases hS
    exact .nil
  | cons hab _ ih =>
    cases hS with
    | cons hac hrest =>
      exact .cons (h _ List.mem_cons_self _ _ hab hac)
        (ih (fun a hmem => h a (List.mem_cons_of_mem _ hmem)) hrest)

namespace SchemaNode

open Resolution

theorem soleProperty?_eq_some_iff {shape : ObjectSchema} {property : String × SchemaNode} :
    shape.soleProperty? = some property ↔ shape.properties = [property] := by
  unfold ObjectShape.soleProperty?
  rcases shape.properties with _ | ⟨p, _ | ⟨q, rest⟩⟩ <;> simp

/-- What it takes to become an alias of a scalar: an object with nothing but one property, which is
a scalar without declared values. -/
theorem soleScalar?_eq_some_iff {node : SchemaNode} {name : String} {kind : ScalarKind} :
    soleScalar? node = some (name, kind) ↔ ∃ info shape info', node = mk info (.object shape) ∧
      node.enumValues? = none ∧ shape.oneOf? = none ∧ shape.mapValues? = none ∧
      shape.properties = [(name, mk info' (.scalar kind))] ∧
      (mk info' (.scalar kind)).enumValues? = none := by
  constructor
  · intro h
    obtain ⟨info, _ | _ | ⟨properties, required, oneOf?, mapValues?, modelRef?⟩ | _⟩ := node
    case object =>
      simp only [soleScalar?, object?, SchemaNode.kind, Option.bind_eq_bind, Option.bind_some,
        Option.ite_none_left_eq_some, Bool.or_eq_true, not_or, Bool.not_eq_true,
        Option.isSome_eq_false_iff, Option.isNone_iff_eq_none, Option.bind_eq_some_iff,
        soleProperty?_eq_some_iff] at h
      obtain ⟨⟨⟨hvalues, honeOf⟩, hmap⟩, ⟨key, info', kind'⟩, hsole, hscalar, hmember⟩ := h
      cases kind' with
      | scalar kind' =>
        cases hmember
        exact ⟨info, _, info', rfl, hvalues, honeOf, hmap, hsole, hscalar⟩
      | _ => cases hmember
    all_goals cases h
  · rintro ⟨info, shape, info', rfl, hvalues, honeOf, hmap, hsole, hscalar⟩
    unfold soleScalar?
    simp [object?, SchemaNode.kind, hvalues, honeOf, hmap, soleProperty?_eq_some_iff.mpr hsole,
      hscalar, scalarKind?]

theorem SameShape.soleScalar?_eq_some {a b : SchemaNode} (h : a.SameShape b)
    {member : String × ScalarKind} (ha : soleScalar? a = some member) :
    soleScalar? b = some member := by
  obtain ⟨name, kind⟩ := member
  obtain ⟨info, shape, info', rfl, hvalues, honeOf, hmap, hsole, hscalar⟩ :=
    soleScalar?_eq_some_iff.mp ha
  obtain ⟨other, shape', rfl⟩ := h.of_object
  obtain ⟨⟨_, node⟩, hsole', rfl, hnode⟩ := h.exists_sole_property hsole
  obtain ⟨other', rfl⟩ := hnode.of_scalar
  exact soleScalar?_eq_some_iff.mpr ⟨other, shape', other', rfl,
    h.enumValues?_eq_none_iff.mp hvalues, none_of_rel h.oneOf?_rel honeOf,
    none_of_rel h.mapValues?_rel hmap, hsole', hnode.enumValues?_eq_none_iff.mp hscalar⟩

theorem SameShape.soleScalar?_eq {a b : SchemaNode} (h : a.SameShape b) :
    soleScalar? a = soleScalar? b :=
  Option.ext fun _ => ⟨h.soleScalar?_eq_some, h.symm.soleScalar?_eq_some⟩

theorem soleScalars?_eq {nodes nodes' : List SchemaNode}
    (h : List.Forall₂ SameShape nodes nodes') : soleScalars? nodes = soleScalars? nodes' := by
  have hmapM : nodes.mapM soleScalar? = nodes'.mapM soleScalar? := by
    induction h with
    | nil => rfl
    | cons hnode _ ih => rw [List.mapM_cons, List.mapM_cons, hnode.soleScalar?_eq, ih]
  unfold soleScalars?
  rw [hmapM]
  cases h <;> rfl

end SchemaNode

namespace Declarations

variable {D D' : Declarations} {type : TypeRef}

theorem VariantMatches.transfer (hD : D.Extends D') {a b : SchemaNode}
    (h : D.VariantMatches a type) (hnode : ∀ {type}, D.Matches a type → D'.Matches b type) :
    D'.VariantMatches b type := by
  refine h.imp ?_ fun h => h.mono hD fun _ => hnode
  rintro ⟨name, htype, hname⟩
  exact ⟨name, htype, hnode hname⟩

theorem AlternativesMatch.transfer_of (hD : D.Extends D') {nodes nodes' : List SchemaNode}
    {variants : List TypeRef} (hnodes : List.Forall₂ SchemaNode.SameShape nodes nodes')
    (h : D.AlternativesMatch (some nodes) variants)
    (hnode : ∀ a ∈ nodes, ∀ {b type}, a.SameShape b → D.Matches a type → D'.Matches b type) :
    D'.AlternativesMatch (some nodes') variants := by
  cases hsole : Resolution.soleScalars? nodes with
  | some members =>
    rw [alternativesMatch_of_scalars hsole] at h
    rw [alternativesMatch_of_scalars (SchemaNode.soleScalars?_eq hnodes ▸ hsole)]
    exact h.imp fun _ _ hvariant => hvariant.mono hD fun _ h => h
  | none =>
    rw [alternativesMatch_iff hsole] at h
    rw [alternativesMatch_iff (SchemaNode.soleScalars?_eq hnodes ▸ hsole)]
    exact forall₂_of_common (fun node hmem _ _ hsame hvariant =>
      hvariant.transfer hD (hnode node hmem hsame)) hnodes h

/-- The other schema has its properties in an order of its own, and the fields follow it. -/
theorem exists_fields_of_sameShape {info info' : SchemaInfo} {shape shape' : ObjectSchema}
    (hsame : (SchemaNode.mk info (.object shape)).SameShape (.mk info' (.object shape')))
    {fields : List FieldDecl}
    (hfields : List.Forall₂ (D.FieldMatches shape.required) shape.properties fields)
    (hnode : ∀ property ∈ shape.properties, ∀ {b type}, property.2.SameShape b →
      D.Matches property.2 type → D'.Matches b type) :
    ∃ fields', fields'.Perm fields ∧
      List.Forall₂ (D'.FieldMatches shape'.required) shape'.properties fields' := by
  obtain ⟨properties, hperm, hproperties⟩ := hsame.exists_properties_perm
  have hreordered : List.Forall₂ (D'.FieldMatches shape'.required) properties fields := by
    refine forall₂_of_common (fun property hmem _ _ hproperty hfield => ?_) hproperties hfields
    obtain ⟨hfield, htype⟩ := hfield
    rw [hproperty.1, hsame.required_eq] at hfield
    exact ⟨hfield, hnode property hmem hproperty.2 htype⟩
  obtain ⟨fields', hfields', hperm'⟩ := List.perm_comp_forall₂ hperm.symm hreordered
  exact ⟨fields', hperm', hfields'⟩

/-- A type that is right for a schema is right for each schema of that shape, also when more has
been declared. -/
theorem Matches.transfer (hD : D.Extends D') {a : SchemaNode} :
    ∀ {b : SchemaNode} {type : TypeRef}, a.SameShape b → D.Matches a type → D'.Matches b type := by
  induction a using SchemaNode.byChildren with
  | scalar info kind =>
    intro b type hsame h
    obtain ⟨info', rfl⟩ := hsame.of_scalar
    cases hvalues : (SchemaNode.mk info (.scalar kind)).enumValues? with
    | none =>
      rw [matches_scalar hvalues] at h
      rw [matches_scalar (hsame.enumValues?_eq_none_iff.mp hvalues)]
      exact h
    | some values =>
      obtain ⟨values', hvalues', hsorted⟩ := hsame.exists_enumValues? hvalues
      rw [matches_scalar_of_enum hvalues] at h
      rw [matches_scalar_of_enum hvalues']
      exact h.mono hD hsorted
  | null info =>
    intro b type hsame h
    obtain ⟨info', rfl⟩ := hsame.of_null
    rw [matches_null] at h ⊢
    exact h
  | array info items ih =>
    intro b type hsame h
    obtain ⟨info', items', rfl, hitems⟩ := hsame.of_array
    rw [matches_array] at h ⊢
    obtain ⟨item, rfl, hitem⟩ := h
    exact ⟨item, rfl, ih hitems hitem⟩
  | object info shape hproperties halternatives hmap =>
    intro b type hsame h
    obtain ⟨info', shape', rfl⟩ := hsame.of_object
    cases hvalues : (SchemaNode.mk info (.object shape)).enumValues? with
    | some values =>
      obtain ⟨values', hvalues', hsorted⟩ := hsame.exists_enumValues? hvalues
      rw [matches_object_of_enum hvalues] at h
      rw [matches_object_of_enum hvalues']
      exact h.mono hD hsorted
    | none =>
      have hvalues' := hsame.enumValues?_eq_none_iff.mp hvalues
      cases honeOf : shape.oneOf? with
      | some alternatives =>
        obtain ⟨alternatives', honeOf', hnodes⟩ := exists_of_rel hsame.oneOf?_rel honeOf
        rw [matches_sealed hvalues honeOf] at h
        rw [matches_sealed hvalues' honeOf']
        refine h.mono hD ?_
        rintro d _ ⟨parents, enums, rfl, _⟩ ⟨hkind, hvariants⟩
        exact ⟨hkind, hvariants.transfer_of hD hnodes fun node hmem =>
          halternatives _ honeOf node hmem⟩
      | none =>
        have honeOf' := none_of_rel hsame.oneOf?_rel honeOf
        cases hmapValues : shape.mapValues? with
        | some mapValues =>
          obtain ⟨mapValues', hmapValues', -, hnode⟩ :=
            exists_of_rel hsame.mapValues?_rel hmapValues
          rw [matches_map hvalues honeOf hmapValues] at h
          rw [matches_map hvalues' honeOf' hmapValues']
          refine h.imp ?_ fun h => h.mono hD ?_
          · rintro ⟨value, rfl, hvalue⟩
            exact ⟨value, rfl, hmap _ hmapValues hnode hvalue⟩
          · rintro d _ ⟨parents, enums, rfl, _⟩ ⟨hkind, value, hd, hvalue⟩
            exact ⟨hkind, value, hd, hmap _ hmapValues hnode hvalue⟩
        | none =>
          have hmapValues' := none_of_rel hsame.mapValues?_rel hmapValues
          rw [matches_data hvalues honeOf hmapValues] at h
          rw [matches_data hvalues' honeOf' hmapValues']
          refine h.mono hD ?_
          rintro d _ ⟨parents, enums, rfl, _⟩ ⟨hkind, fields, hperm, hfields⟩
          obtain ⟨fields', hperm', hfields'⟩ := exists_fields_of_sameShape hsame hfields
            fun property hmem => hproperties property hmem
          have hempty : shape.properties.isEmpty = shape'.properties.isEmpty :=
            isEmpty_eq_of_length_eq
              (hfields.length_eq.trans (hperm'.length_eq.symm.trans hfields'.length_eq.symm))
          exact ⟨hempty ▸ hkind, fields', hperm'.trans hperm, hfields'⟩

theorem AlternativesMatch.transfer (hD : D.Extends D') {nodes : List SchemaNode}
    {variants : List TypeRef} (h : D.AlternativesMatch (some nodes) variants) :
    D'.AlternativesMatch (some nodes) variants :=
  h.transfer_of hD (List.forall₂_same.mpr fun node _ => .refl node) fun _ _ => Matches.transfer hD

end Declarations

end ThingTypes
