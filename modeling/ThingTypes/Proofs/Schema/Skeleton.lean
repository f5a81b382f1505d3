import ThingTypes.Proofs.Json.Parts
import ThingTypes.Proofs.Json.Sorted
import ThingTypes.Proofs.Schema.Induction

/-
  What a fingerprint says about a schema. With a digest that tells descriptions apart, schemas of
  one fingerprint have skeletons that differ in the order of members only (`SameShape`). They are
  of one type, declare the same values, and their children correspond.
-/

namespace ThingTypes

/-- Lists whose images are the same up to order can be brought into one order. -/
theorem exists_perm_of_map_perm {α β γ : Type*} {f : α → γ} {g : β → γ} {l : List α} {m : List β}
    (h : (l.map f).Perm (m.map g)) : ∃ n : List β, n.Perm m ∧ l.map f = n.map g := by
  have hcomp : Relation.Comp (· = List.map g ·) List.Perm (l.map f) m := by
    rw [List.eq_map_comp_perm]
    exact h
  obtain ⟨n, hsame, hperm⟩ := hcomp
  exact ⟨n, hperm, hsame⟩

namespace SchemaNode

/-- Two schemas that differ in descriptions and in the order of members at most. -/
def SameShape (a b : SchemaNode) : Prop :=
  a.skeleton.sorted = b.skeleton.sorted

theorem fingerprint_eq_iff {digest : Digest} (hdigest : Function.Injective digest)
    {a b : SchemaNode} : a.fingerprint digest = b.fingerprint digest ↔ a.SameShape b := by
  rw [fingerprint, fingerprint, Fingerprint.ofJson, Fingerprint.ofJson, hdigest.eq_iff,
    Json.canonical_eq_iff]
  rfl

theorem SameShape.refl (a : SchemaNode) : a.SameShape a := rfl

theorem SameShape.symm {a b : SchemaNode} (h : a.SameShape b) : b.SameShape a := Eq.symm h

/-! ## Skeletons -/

theorem propertySkeletons_eq (properties : List (String × SchemaNode)) :
    propertySkeletons properties = properties.map fun p => (p.1, p.2.skeleton) := by
  induction properties with
  | nil => rw [propertySkeletons, List.map_nil]
  | cons p rest ih => rw [propertySkeletons, ih, List.map_cons]

theorem skeletons_eq (nodes : List SchemaNode) : skeletons nodes = nodes.map skeleton := by
  induction nodes with
  | nil => rw [skeletons, List.map_nil]
  | cons node rest ih => rw [skeletons, ih, List.map_cons]

/-- The members of the skeleton of an object besides the common ones. -/
def shapeMembers (shape : ObjectSchema) : List (String × Json) :=
  [("properties", .object (shape.properties.map fun p => (p.1, p.2.skeleton)))]
    ++ (if shape.required.isEmpty then [] else [("required", Json.strings shape.required)])
    ++ (shape.oneOf?.map fun nodes => ("oneOf", Json.array (nodes.map skeleton))).toList
    ++ (shape.mapValues?.map fun values => (values.keyword.name, values.schema.skeleton)).toList

/-- The members of a skeleton besides the common ones. -/
def ownMembers : SchemaNode → List (String × Json)
  | mk _ (.object shape) => shapeMembers shape
  | mk _ (.array items) => [("items", items.skeleton)]
  | _ => []

theorem skeleton_eq (node : SchemaNode) :
    node.skeleton = .object (node.commonSkeleton ++ node.ownMembers) := by
  obtain ⟨info, kind | _ | ⟨properties, required, oneOf?, mapValues?, modelRef?⟩ | items⟩ := node
  · change _ = Json.object (commonSkeleton (mk info (.scalar kind)) ++ [])
    rw [skeleton, List.append_nil]
  · change _ = Json.object (commonSkeleton (mk info .null) ++ [])
    rw [skeleton, List.append_nil]
  · rw [skeleton, ownMembers, shapeMembers, propertySkeletons_eq]
    cases oneOf? <;> cases mapValues? <;>
      simp only [alternativesSkeleton, valuesSkeleton, skeletons_eq, Option.map_none,
        Option.map_some, Option.toList_none, Option.toList_some, List.append_assoc]
  · rw [skeleton, ownMembers]

variable {info info' : SchemaInfo} {shape shape' : ObjectSchema} {key : String}

/-! ## What can be read off a skeleton -/

theorem get?_skeleton (node : SchemaNode) (key : String) :
    node.skeleton.get? key =
      (Entries.get? key node.commonSkeleton).or (Entries.get? key node.ownMembers) := by
  rw [skeleton_eq, Json.get?, Json.members?, Option.bind_some, Entries.get?_append]

theorem get?_common_of_not_mem (node : SchemaNode) (h : key ∉ ["type", "format", "enum"]) :
    Entries.get? key node.commonSkeleton = none := by
  rw [Entries.get?_eq_none_iff]
  unfold commonSkeleton
  cases node.info.format? <;> cases node.info.enumeration? <;> simp_all

theorem get?_type (node : SchemaNode) :
    node.skeleton.get? "type" = some (.string node.typeName) := by
  rw [get?_skeleton]
  rfl

theorem get?_own_of_mem (node : SchemaNode) (h : key ∈ ["type", "format", "enum"]) :
    Entries.get? key node.ownMembers = none := by
  rw [Entries.get?_eq_none_iff]
  obtain ⟨info, _ | _ | ⟨properties, required, oneOf?, mapValues?, modelRef?⟩ | _⟩ := node
  · exact List.not_mem_nil
  · exact List.not_mem_nil
  · cases required <;> cases oneOf? <;> rcases mapValues? with _ | ⟨_ | _, _⟩ <;>
      simp only [List.mem_cons, List.not_mem_nil, or_false] at h <;>
      rcases h with rfl | rfl | rfl <;> simp [ownMembers, shapeMembers, MapKeyword.name]
  · simp only [List.mem_cons, List.not_mem_nil, or_false] at h
    rcases h with rfl | rfl | rfl <;> simp [ownMembers]

theorem get?_format (node : SchemaNode) :
    node.skeleton.get? "format" = node.info.format?.map .string := by
  rw [get?_skeleton, get?_own_of_mem _ (by decide), Option.or_none]
  unfold commonSkeleton
  cases node.info.format? <;> cases node.info.enumeration? <;> simp [Entries.get?]

theorem get?_enum (node : SchemaNode) :
    node.skeleton.get? "enum" = node.info.enumeration?.map .array := by
  rw [get?_skeleton, get?_own_of_mem _ (by decide), Option.or_none]
  unfold commonSkeleton
  cases node.info.format? <;> cases node.info.enumeration? <;> simp [Entries.get?]

theorem get?_items (items : SchemaNode) :
    (mk info (.array items)).skeleton.get? "items" = some items.skeleton := by
  rw [get?_skeleton, get?_common_of_not_mem _ (by decide)]
  rfl

theorem get?_properties :
    (mk info (.object shape)).skeleton.get? "properties" =
      some (.object (shape.properties.map fun p => (p.1, p.2.skeleton))) := by
  rw [get?_skeleton, get?_common_of_not_mem _ (by decide)]
  rfl

theorem get?_required :
    (mk info (.object shape)).skeleton.get? "required" =
      if shape.required.isEmpty then none else some (Json.strings shape.required) := by
  rw [get?_skeleton, get?_common_of_not_mem _ (by decide), Option.none_or]
  obtain ⟨properties, required, oneOf?, mapValues?, modelRef?⟩ := shape
  cases required <;> cases oneOf? <;> rcases mapValues? with _ | ⟨_ | _, _⟩ <;>
    simp [ownMembers, shapeMembers, Entries.get?, MapKeyword.name]

theorem get?_oneOf :
    (mk info (.object shape)).skeleton.get? "oneOf" =
      shape.oneOf?.map fun nodes => Json.array (nodes.map skeleton) := by
  rw [get?_skeleton, get?_common_of_not_mem _ (by decide), Option.none_or]
  obtain ⟨properties, required, oneOf?, mapValues?, modelRef?⟩ := shape
  cases required <;> cases oneOf? <;> rcases mapValues? with _ | ⟨_ | _, _⟩ <;>
    simp [ownMembers, shapeMembers, Entries.get?, MapKeyword.name]

theorem get?_keyword (keyword : MapKeyword) :
    (mk info (.object shape)).skeleton.get? keyword.name =
      (shape.mapValues?.filter (·.keyword.name = keyword.name)).map (·.schema.skeleton) := by
  rw [get?_skeleton, get?_common_of_not_mem _ (by cases keyword <;> simp [MapKeyword.name]),
    Option.none_or]
  obtain ⟨properties, required, oneOf?, mapValues?, modelRef?⟩ := shape
  cases required <;> cases oneOf? <;> rcases mapValues? with _ | ⟨_ | _, _⟩ <;> cases keyword <;>
    simp [ownMembers, shapeMembers, Entries.get?, MapKeyword.name, Option.filter]

/-! ## Schemas of one shape -/

namespace SameShape

variable {a b : SchemaNode}

theorem get?_eq (h : a.SameShape b) (key : String) :
    (a.skeleton.get? key).map Json.sorted = (b.skeleton.get? key).map Json.sorted := by
  rw [← Json.get?_sorted, ← Json.get?_sorted, h]

theorem typeName_eq (h : a.SameShape b) : a.typeName = b.typeName := by
  have htype := h.get?_eq "type"
  rw [get?_type, get?_type] at htype
  simpa [Json.sorted] using htype

theorem format?_eq (h : a.SameShape b) : a.info.format? = b.info.format? := by
  have hformat := h.get?_eq "format"
  rw [get?_format, get?_format, Option.map_map, Option.map_map] at hformat
  exact Option.map_injective (fun _ _ hsame => Json.string.inj hsame) hformat

/-- The same values are declared, in the same order. -/
theorem enumeration?_eq (h : a.SameShape b) :
    a.info.enumeration?.map (List.map Json.sorted) =
      b.info.enumeration?.map (List.map Json.sorted) := by
  have henum := h.get?_eq "enum"
  rw [get?_enum, get?_enum] at henum
  cases ha : a.info.enumeration? <;> cases hb : b.info.enumeration? <;> rw [ha, hb] at henum
  · cases henum
  · cases henum
  · simpa only [Option.map_some, Option.some.injEq, Json.sorted, Json.sortedItems_eq,
      Json.array.injEq] using henum

theorem enumValues?_eq (h : a.SameShape b) :
    a.enumValues?.map (List.map Json.sorted) = b.enumValues?.map (List.map Json.sorted) := by
  have henum := h.enumeration?_eq
  unfold enumValues?
  cases ha : a.info.enumeration? <;> cases hb : b.info.enumeration? <;> rw [ha, hb] at henum
  · cases henum
  · cases henum
  · rename_i values values'
    cases values <;> cases values' <;> simp_all [Option.filter]

theorem enumValues?_eq_none_iff (h : a.SameShape b) :
    a.enumValues? = none ↔ b.enumValues? = none := by
  rw [← Option.map_eq_none_iff (f := List.map Json.sorted), h.enumValues?_eq,
    Option.map_eq_none_iff]

theorem exists_enumValues? (h : a.SameShape b) {values : List Json}
    (hvalues : a.enumValues? = some values) :
    ∃ values', b.enumValues? = some values' ∧
      values.map Json.sorted = values'.map Json.sorted := by
  have henum := h.enumValues?_eq
  rw [hvalues, Option.map_some, eq_comm, Option.map_eq_some_iff] at henum
  obtain ⟨values', hvalues', hsorted⟩ := henum
  exact ⟨values', hvalues', hsorted.symm⟩

theorem of_scalar {kind : ScalarKind} (h : (mk info (.scalar kind)).SameShape b) :
    ∃ info', b = mk info' (.scalar kind) := by
  have htype : kind.typeName = b.typeName := h.typeName_eq
  obtain ⟨info', kind' | _ | _ | _⟩ := b
  · refine ⟨info', ?_⟩
    cases kind <;> cases kind' <;>
      first | rfl | simp [typeName, SchemaNode.kind, ScalarKind.typeName] at htype
  all_goals cases kind <;> simp [typeName, SchemaNode.kind, ScalarKind.typeName] at htype

theorem of_null (h : (mk info .null).SameShape b) : ∃ info', b = mk info' .null := by
  have htype : "null" = b.typeName := h.typeName_eq
  obtain ⟨info', kind' | _ | _ | _⟩ := b
  · cases kind' <;> simp [typeName, SchemaNode.kind, ScalarKind.typeName] at htype
  · exact ⟨info', rfl⟩
  all_goals simp [typeName, SchemaNode.kind] at htype

theorem of_array {items : SchemaNode} (h : (mk info (.array items)).SameShape b) :
    ∃ info' items', b = mk info' (.array items') ∧ items.SameShape items' := by
  have htype : "array" = b.typeName := h.typeName_eq
  obtain ⟨info', kind' | _ | _ | items'⟩ := b
  · cases kind' <;> simp [typeName, SchemaNode.kind, ScalarKind.typeName] at htype
  · simp [typeName, SchemaNode.kind] at htype
  · simp [typeName, SchemaNode.kind] at htype
  · refine ⟨info', items', rfl, ?_⟩
    have hitems := h.get?_eq "items"
    rw [get?_items, get?_items] at hitems
    exact Option.some.inj hitems

theorem of_object (h : (mk info (.object shape)).SameShape b) :
    ∃ info' shape', b = mk info' (.object shape') := by
  have htype : "object" = b.typeName := h.typeName_eq
  obtain ⟨info', kind' | _ | shape' | _⟩ := b
  · cases kind' <;> simp [typeName, SchemaNode.kind, ScalarKind.typeName] at htype
  · simp [typeName, SchemaNode.kind] at htype
  · exact ⟨info', shape', rfl⟩
  · simp [typeName, SchemaNode.kind] at htype

section Object

variable (h : (mk info (.object shape)).SameShape (mk info' (.object shape')))
include h

/-- The properties correspond, up to their order. -/
theorem exists_properties_perm :
    ∃ properties, properties.Perm shape'.properties ∧
      List.Forall₂ (fun p q => p.1 = q.1 ∧ p.2.SameShape q.2) shape.properties properties := by
  have hproperties := h.get?_eq "properties"
  rw [get?_properties, get?_properties] at hproperties
  have hperm := Json.members_perm_of_sorted_eq (Option.some.inj hproperties)
  rw [List.map_map, List.map_map] at hperm
  obtain ⟨properties, hperm, hsame⟩ := exists_perm_of_map_perm hperm
  exact ⟨properties, hperm, (map_eq_map_iff_forall₂.mp hsame).imp fun _ _ h => Prod.mk.inj h⟩

/-- If there is one property only, there is no other order. -/
theorem exists_sole_property {p : String × SchemaNode} (hsole : shape.properties = [p]) :
    ∃ q, shape'.properties = [q] ∧ p.1 = q.1 ∧ p.2.SameShape q.2 := by
  obtain ⟨properties, hperm, hsame⟩ := h.exists_properties_perm
  rw [hsole, List.forall₂_cons_left_iff] at hsame
  obtain ⟨q, rest, hpq, hrest, rfl⟩ := hsame
  rw [List.forall₂_nil_left_iff.mp hrest] at hperm
  exact ⟨q, (List.singleton_perm.mp hperm).symm, hpq⟩

theorem required_eq : shape.required = shape'.required := by
  have hrequired := h.get?_eq "required"
  rw [get?_required, get?_required] at hrequired
  cases hr : shape.required <;> cases hr' : shape'.required <;> rw [hr, hr'] at hrequired
  · cases hrequired
  · cases hrequired
  · have hstrings := Option.some.inj hrequired
    rw [Json.sorted_strings, Json.sorted_strings] at hstrings
    exact List.map_injective_iff.mpr (fun _ _ h => Json.string.inj h) (Json.array.inj hstrings)

/-- The alternatives correspond one by one. -/
theorem oneOf?_rel : Option.Rel (List.Forall₂ SameShape) shape.oneOf? shape'.oneOf? := by
  have honeOf := h.get?_eq "oneOf"
  rw [get?_oneOf, get?_oneOf] at honeOf
  cases ha : shape.oneOf? <;> cases hb : shape'.oneOf? <;> rw [ha, hb] at honeOf
  · exact .none
  · cases honeOf
  · cases honeOf
  · have hnodes := Json.array.inj (Option.some.inj honeOf)
    rw [Json.sortedItems_eq, Json.sortedItems_eq, List.map_map, List.map_map] at hnodes
    exact .some (map_eq_map_iff_forall₂.mp hnodes)

/-- So do the values of maps, under one keyword. -/
theorem mapValues?_rel :
    Option.Rel (fun values values' => values.keyword.name = values'.keyword.name ∧
      values.schema.SameShape values'.schema) shape.mapValues? shape'.mapValues? := by
  have hpattern := h.get?_eq (MapKeyword.pattern "").name
  have hadditional := h.get?_eq MapKeyword.additional.name
  rw [get?_keyword, get?_keyword] at hpattern hadditional
  rcases ha : shape.mapValues? with _ | ⟨_ | _, schema⟩ <;>
    rcases hb : shape'.mapValues? with _ | ⟨_ | _, schema'⟩ <;>
    simp [ha, hb, Option.filter, MapKeyword.name] at hpattern hadditional
  · exact .none
  · exact .some ⟨rfl, hpattern⟩
  · exact .some ⟨rfl, hadditional⟩

end Object

end SameShape

/-! ## Weight -/

/-- How long the description of a schema is. Schemas of one shape weigh the same, and a child weighs
less than what it stands in. -/
def weight (node : SchemaNode) : ℕ := node.skeleton.weight

theorem SameShape.weight_eq {a b : SchemaNode} (h : a.SameShape b) : a.weight = b.weight := by
  rw [weight, weight, Json.weight, Json.weight, h]

theorem weight_lt_of_member {node : SchemaNode} {key : String} {j : Json}
    (h : (key, j) ∈ node.ownMembers) :
    j.weight < node.weight := by
  rw [weight, skeleton_eq]
  exact Json.weight_lt_of_member (List.mem_append_right _ h)

theorem weight_lt_array (info : SchemaInfo) (items : SchemaNode) :
    items.weight < (mk info (.array items)).weight := by
  have hmem : ("items", items.skeleton) ∈ (mk info (.array items)).ownMembers := List.mem_cons_self
  exact weight_lt_of_member hmem

theorem weight_lt_of_property {property : String × SchemaNode} (h : property ∈ shape.properties) :
    property.2.weight < (mk info (.object shape)).weight := by
  have hmem : ("properties", .object (shape.properties.map fun p => (p.1, p.2.skeleton))) ∈
      (mk info (.object shape)).ownMembers := by
    simp [ownMembers, shapeMembers]
  have hproperty : (property.1, property.2.skeleton) ∈
      shape.properties.map fun p => (p.1, p.2.skeleton) := List.mem_map.mpr ⟨property, h, rfl⟩
  exact (Json.weight_lt_of_member hproperty).trans (weight_lt_of_member hmem)

theorem weight_lt_of_alternative {alternatives : List SchemaNode} {node : SchemaNode}
    (honeOf : shape.oneOf? = some alternatives) (h : node ∈ alternatives) :
    node.weight < (mk info (.object shape)).weight := by
  have hmem : ("oneOf", .array (alternatives.map skeleton)) ∈
      (mk info (.object shape)).ownMembers := by
    simp [ownMembers, shapeMembers, honeOf]
  exact (Json.weight_lt_of_item (List.mem_map_of_mem h)).trans (weight_lt_of_member hmem)

theorem weight_lt_of_mapValues {values : MapValues SchemaNode}
    (h : shape.mapValues? = some values) :
    values.schema.weight < (mk info (.object shape)).weight := by
  have hmem : (values.keyword.name, values.schema.skeleton) ∈
      (mk info (.object shape)).ownMembers := by
    simp [ownMembers, shapeMembers, h]
  exact weight_lt_of_member hmem

end SchemaNode

end ThingTypes
