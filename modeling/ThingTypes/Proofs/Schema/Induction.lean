import ThingTypes.Schema.Node

/-
  Induction on schemas. The children of an object are its properties, its alternatives and the
  values of its map.
-/

namespace ThingTypes.SchemaNode

theorem sizeOf_lt_of_property {shape : ObjectSchema} {property : String × SchemaNode}
    (h : property ∈ shape.properties) : sizeOf property.2 < sizeOf shape := by
  obtain ⟨properties, required, oneOf?, mapValues?, modelRef?⟩ := shape
  obtain ⟨name, node⟩ := property
  have hlist := List.sizeOf_lt_of_mem h
  simp at hlist ⊢
  omega

theorem sizeOf_lt_of_alternative {shape : ObjectSchema} {alternatives : List SchemaNode}
    {node : SchemaNode} (honeOf : shape.oneOf? = some alternatives) (h : node ∈ alternatives) :
    sizeOf node < sizeOf shape := by
  obtain ⟨properties, required, oneOf?, mapValues?, modelRef?⟩ := shape
  cases honeOf
  have hlist := List.sizeOf_lt_of_mem h
  simp
  omega

theorem sizeOf_lt_of_mapValues {shape : ObjectSchema} {values : MapValues SchemaNode}
    (h : shape.mapValues? = some values) : sizeOf values.schema < sizeOf shape := by
  obtain ⟨properties, required, oneOf?, mapValues?, modelRef?⟩ := shape
  obtain ⟨keyword, schema⟩ := values
  cases h
  simp
  omega

/-- What holds of a schema whenever it holds of its children holds of every schema. -/
theorem byChildren {P : SchemaNode → Prop}
    (scalar : ∀ info kind, P (mk info (.scalar kind)))
    (null : ∀ info, P (mk info .null))
    (array : ∀ info items, P items → P (mk info (.array items)))
    (object : ∀ info (shape : ObjectSchema),
      (∀ property ∈ shape.properties, P property.2) →
      (∀ alternatives, shape.oneOf? = some alternatives → ∀ node ∈ alternatives, P node) →
      (∀ values, shape.mapValues? = some values → P values.schema) →
      P (mk info (.object shape))) : ∀ node, P node
  | mk info (.scalar kind) => scalar info kind
  | mk info .null => null info
  | mk info (.array items) => array info items (byChildren scalar null array object items)
  | mk info (.object shape) =>
    object info shape
      (fun property h =>
        have := sizeOf_lt_of_property h
        byChildren scalar null array object property.2)
      (fun _ honeOf node h =>
        have := sizeOf_lt_of_alternative honeOf h
        byChildren scalar null array object node)
      (fun values h =>
        have := sizeOf_lt_of_mapValues h
        byChildren scalar null array object values.schema)
termination_by node => sizeOf node
decreasing_by all_goals simp_wf; omega

/-- The schemas that stand directly in a schema. -/
def children (node : SchemaNode) : List SchemaNode :=
  match node.kind with
  | .scalar _ | .null => []
  | .array items => [items]
  | .object shape =>
    shape.properties.map Prod.snd ++ shape.oneOf?.getD []
      ++ (shape.mapValues?.map MapValues.schema).toList

theorem mem_children_array {info : SchemaInfo} {items child : SchemaNode} :
    child ∈ (mk info (.array items)).children ↔ child = items :=
  List.mem_singleton

theorem mem_children_object {info : SchemaInfo} {shape : ObjectSchema} {child : SchemaNode} :
    child ∈ (mk info (.object shape)).children ↔
      (∃ property ∈ shape.properties, property.2 = child) ∨
      (∃ alternatives, shape.oneOf? = some alternatives ∧ child ∈ alternatives) ∨
      ∃ values, shape.mapValues? = some values ∧ values.schema = child := by
  simp only [children, kind, List.mem_append, List.mem_map, Option.mem_toList,
    Option.map_eq_some_iff, or_assoc]
  cases shape.oneOf? <;> simp

section Object

variable {info : SchemaInfo} {shape : ObjectSchema}

theorem mem_children_of_property {property : String × SchemaNode}
    (h : property ∈ shape.properties) : property.2 ∈ (mk info (.object shape)).children :=
  mem_children_object.mpr (.inl ⟨property, h, rfl⟩)

theorem mem_children_of_alternative {alternatives : List SchemaNode} {node : SchemaNode}
    (honeOf : shape.oneOf? = some alternatives) (h : node ∈ alternatives) :
    node ∈ (mk info (.object shape)).children :=
  mem_children_object.mpr (.inr (.inl ⟨alternatives, honeOf, h⟩))

theorem mem_children_of_mapValues {values : MapValues SchemaNode}
    (h : shape.mapValues? = some values) : values.schema ∈ (mk info (.object shape)).children :=
  mem_children_object.mpr (.inr (.inr ⟨values, h, rfl⟩))

end Object

/-- Neither the schema nor any schema in it declares values. -/
inductive EnumFree : SchemaNode → Prop where
  | intro {node : SchemaNode} : node.enumValues? = none →
    (∀ child ∈ node.children, EnumFree child) → EnumFree node

theorem EnumFree.enumValues?_eq {node : SchemaNode} : node.EnumFree → node.enumValues? = none
  | intro h _ => h

theorem EnumFree.child {node child : SchemaNode} :
    node.EnumFree → child ∈ node.children → child.EnumFree
  | intro _ h, hmem => h child hmem

end ThingTypes.SchemaNode
