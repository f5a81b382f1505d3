import ThingTypes.Generation.Feature
import ThingTypes.Proofs.Grouping
import ThingTypes.Proofs.Json.Parts
import ThingTypes.Proofs.Resolution.EnumValues
import ThingTypes.Proofs.Schema.Reading

/-
  The schema of a feature, from the schemas of its properties. The properties of a category stand
  in the object of the category, and the others behind all the objects; none is lost, changed or
  there twice. There is no such schema exactly if a property would stand where the object of a
  category does.
-/

namespace ThingTypes.ThingModel

/-! ## Properties and their categories -/

/-- Nodes are what the schemas of the properties are read as, one by one. -/
def ReadsTo (m : ThingModel) (nodes : List (String × SchemaNode)) : Prop :=
  List.Forall₂ (fun e property => property.1 = e.1 ∧
    SchemaNode.ofJson e.2 ("#/properties/" ++ e.1) = .ok property.2) m.properties.entries nodes

/-- The categories that properties are in, each where it is first seen. -/
def categoriesOf (nodes : List (String × SchemaNode)) : List String :=
  (nodes.filterMap (·.2.info.category?)).eraseDups

/-- The properties in a category, or in none, in their order. -/
def inCategory (nodes : List (String × SchemaNode)) (category? : Option String) :
    List (String × SchemaNode) :=
  nodes.filter (·.2.info.category? = category?)

/-- The names of those properties that the model does not list as optional. -/
def nonOptional (m : ThingModel) (properties : List (String × SchemaNode)) : List String :=
  (properties.map Prod.fst).filter (!m.isOptionalProperty ·)

/-- The object that has all the properties of a category. -/
def categoryObject (m : ThingModel) (nodes : List (String × SchemaNode)) (category : String) :
    SchemaNode :=
  .ofProperties (inCategory nodes (some category))
    (m.nonOptional (inCategory nodes (some category))) (some (Identifier.className category))

/-- The objects of the categories, and the properties in no category behind them. -/
def regrouped (m : ThingModel) (nodes : List (String × SchemaNode)) : List (String × SchemaNode) :=
  (categoriesOf nodes).map (fun category => (category, m.categoryObject nodes category)) ++
    inCategory nodes none

variable {m : ThingModel} {nodes : List (String × SchemaNode)}

theorem ReadsTo.propertyNodes (h : m.ReadsTo nodes) : m.propertyNodes = .ok nodes := by
  apply mapM_ok_of_forall₂
  apply h.imp
  intro e property hproperty
  obtain ⟨name, schema⟩ := e
  obtain ⟨rfl, hnode⟩ := hproperty
  show (SchemaNode.ofJson schema ("#/properties/" ++ property.1) >>= fun node => _) = _
  rw [hnode]
  rfl

theorem readsTo_of_propertyNodes (h : m.propertyNodes = .ok nodes) : m.ReadsTo nodes := by
  apply (forall₂_of_mapM_ok h).imp
  intro e property hproperty
  obtain ⟨node, hnode, hpure⟩ := exists_of_bind_eq_ok hproperty
  cases hpure
  exact ⟨rfl, hnode⟩

theorem ReadsTo.names (h : m.ReadsTo nodes) : nodes.map Prod.fst = m.properties.keys :=
  (map_eq_map_iff_forall₂.mpr (h.imp fun _ _ hproperty => hproperty.1.symm)).symm

/-- Of the properties of the model, the required ones are those that are not optional. -/
theorem ReadsTo.filter_required (h : m.ReadsTo nodes) {properties : List (String × SchemaNode)}
    (hsub : properties ⊆ nodes) :
    (properties.map Prod.fst).filter (m.requiredProperties.contains ·) =
      m.nonOptional properties := by
  apply List.filter_congr
  intro name hname
  have hkey : name ∈ m.properties.keys := h.names ▸ List.map_subset _ hsub hname
  rw [requiredProperties, List.contains_eq_mem, Bool.eq_iff_iff, decide_eq_true_eq,
    List.mem_filter]
  exact and_iff_right hkey

theorem inCategory_subset (nodes : List (String × SchemaNode)) (category? : Option String) :
    inCategory nodes category? ⊆ nodes :=
  List.filter_subset_self _

/-! ## The schema -/

theorem ReadsTo.featureProperties (h : m.ReadsTo nodes) :
    featureProperties m.requiredProperties
      (CategoryGroups.ofList (fun property => property.2.info.category?) nodes) =
      m.regrouped nodes := by
  unfold ThingModel.featureProperties regrouped
  rw [CategoryGroups.entries_grouped_ofList, CategoryGroups.ungrouped_ofList, List.map_map]
  congr 1
  apply List.map_congr_left
  intro category _
  show (category, categoryNode m.requiredProperties category (inCategory nodes (some category))) = _
  rw [categoryNode, h.filter_required (inCategory_subset nodes _)]
  rfl

/-- The first property in no category that has the name of one is the error; else the properties
are regrouped. -/
theorem ReadsTo.featureNode (h : m.ReadsTo nodes) (location title : String) :
    m.featureNode location title =
      match ((inCategory nodes none).map Prod.fst).find? ((categoriesOf nodes).contains ·) with
      | some name => .error (.invalidModel location (.categoryCollision name))
      | none => .ok (.ofProperties (m.regrouped nodes)
          (categoriesOf nodes ++ m.nonOptional (inCategory nodes none)) (some title)) := by
  have hcategories :
      (CategoryGroups.ofList (fun property : String × SchemaNode =>
        property.2.info.category?) nodes).categories = categoriesOf nodes :=
    CategoryGroups.categories_ofList _ nodes
  have hungrouped :
      (CategoryGroups.ofList (fun property : String × SchemaNode =>
        property.2.info.category?) nodes).ungrouped = inCategory nodes none :=
    CategoryGroups.ungrouped_ofList _ nodes
  unfold ThingModel.featureNode
  rw [h.propertyNodes]
  show (match categoryCollision? (CategoryGroups.ofList (fun property : String × SchemaNode =>
    property.2.info.category?) nodes) with | some property => _ | none => _) = _
  rw [h.featureProperties, categoryCollision?, hcategories, hungrouped,
    h.filter_required (inCategory_subset nodes none)]
  cases ((inCategory nodes none).map Prod.fst).find? ((categoriesOf nodes).contains ·) <;> rfl

theorem find?_collision_eq_none_iff :
    ((inCategory nodes none).map Prod.fst).find? ((categoriesOf nodes).contains ·) = none ↔
      ¬∃ property ∈ inCategory nodes none, property.1 ∈ categoriesOf nodes := by
  simp

/-- Without a collision, the names of the regrouped properties are distinct. -/
theorem nodup_regrouped (hnames : (nodes.map Prod.fst).Nodup)
    (hapart : ¬∃ property ∈ inCategory nodes none, property.1 ∈ categoriesOf nodes) :
    ((m.regrouped nodes).map Prod.fst).Nodup := by
  have hcategories :
      ((categoriesOf nodes).map fun category => (category, m.categoryObject nodes category)).map
        Prod.fst = categoriesOf nodes := by simp [Function.comp_def]
  have huncategorised : ((inCategory nodes none).map Prod.fst).Nodup :=
    hnames.sublist (List.filter_sublist.map _)
  rw [regrouped, List.map_append, hcategories]
  apply List.nodup_append.mpr
  refine ⟨nodup_eraseDups _, huncategorised, ?_⟩
  intro category hcategory name hname hsame
  obtain ⟨property, hproperty, rfl⟩ := List.mem_map.mp hname
  exact hapart ⟨property, hproperty, hsame ▸ hcategory⟩

/-- The schema of a feature loses nothing. There is none exactly if a property in no category has
the name of a category, and the error names such a property. Else it is an object for each category,
in the order in which the categories are first seen, with the properties of the category in their
order, the ones that are not optional being required; then come the properties in no category, in
their order. All categories are required, and those of the other properties that are not optional.
Names are distinct, and each property of the model stands in exactly one place, as it was read. -/
theorem featureNode_regroups (h : m.ReadsTo nodes) (location title : String) :
    ((∃ e, m.featureNode location title = .error e) ↔
      ∃ property ∈ inCategory nodes none, property.1 ∈ categoriesOf nodes) ∧
    (∀ e, m.featureNode location title = .error e →
      ∃ property ∈ inCategory nodes none, property.1 ∈ categoriesOf nodes ∧
        e = .invalidModel location (.categoryCollision property.1)) ∧
    (∀ node, m.featureNode location title = .ok node →
      node = .ofProperties (m.regrouped nodes)
        (categoriesOf nodes ++ m.nonOptional (inCategory nodes none)) (some title) ∧
      ((m.regrouped nodes).map Prod.fst).Nodup) ∧
    (((categoriesOf nodes).flatMap fun category => inCategory nodes (some category)) ++
      inCategory nodes none).Perm nodes := by
  have hnames : (nodes.map Prod.fst).Nodup := h.names ▸ m.properties.nodup
  have hperm := CategoryGroups.groups_perm
    (fun property : String × SchemaNode => property.2.info.category?) nodes
  rw [h.featureNode]
  cases hfind : ((inCategory nodes none).map Prod.fst).find? ((categoriesOf nodes).contains ·) with
  | none =>
    have hapart := find?_collision_eq_none_iff.mp hfind
    refine ⟨⟨nofun, fun hcollision => absurd hcollision hapart⟩, nofun, ?_, hperm⟩
    intro node hnode
    cases hnode
    exact ⟨rfl, nodup_regrouped hnames hapart⟩
  | some name =>
    obtain ⟨property, hproperty, rfl⟩ := List.mem_map.mp (List.mem_of_find?_eq_some hfind)
    have hcategory : property.1 ∈ categoriesOf nodes := by
      simpa using List.find?_some hfind
    refine ⟨⟨fun _ => ⟨property, hproperty, hcategory⟩, fun _ => ⟨_, rfl⟩⟩, ?_, nofun, hperm⟩
    intro e he
    cases he
    exact ⟨property, hproperty, hcategory, rfl⟩

/-- A fan whose properties in two categories are mixed with one in none. -/
def fanModel : ThingModel where
  properties := .ofList
    [("speed", .object [("type", .string "integer"), ("ditto:category", .string "control")]),
      ("label", .object [("type", .string "string")]),
      ("hours", .object [("type", .string "integer"), ("ditto:category", .string "usage")]),
      ("mode", .object [("type", .string "string"), ("ditto:category", .string "control")])]
  optional := ["/properties/label", "/properties/mode"]

/-- The properties of the fan, read. -/
def fanNodes : List (String × SchemaNode) :=
  [("speed", .mk { category? := some "control" } (.scalar .integer)),
    ("label", .mk {} (.scalar .string)),
    ("hours", .mk { category? := some "usage" } (.scalar .integer)),
    ("mode", .mk { category? := some "control" } (.scalar .string))]

theorem featureNode_regroups_fan :
    fanModel.ReadsTo fanNodes ∧
      fanModel.featureNode "fan.json" "Fan" = .ok (.ofProperties
        [("control", .ofProperties
            [("speed", .mk { category? := some "control" } (.scalar .integer)),
              ("mode", .mk { category? := some "control" } (.scalar .string))]
            ["speed"] (some "Control")),
          ("usage", .ofProperties
            [("hours", .mk { category? := some "usage" } (.scalar .integer))]
            ["hours"] (some "Usage")),
          ("label", .mk {} (.scalar .string))]
        ["control", "usage"] (some "Fan")) := by
  have hread : fanModel.ReadsTo fanNodes :=
    .cons ⟨rfl, rfl⟩ (.cons ⟨rfl, rfl⟩ (.cons ⟨rfl, rfl⟩ (.cons ⟨rfl, rfl⟩ .nil)))
  obtain ⟨hfails, -, hsucceeds, -⟩ := featureNode_regroups hread "fan.json" "Fan"
  refine ⟨hread, ?_⟩
  cases hresult : fanModel.featureNode "fan.json" "Fan" with
  | error e =>
    obtain ⟨property, hproperty, hcategory⟩ := hfails.mp ⟨e, hresult⟩
    have hapart : ∀ property ∈ inCategory fanNodes none, property.1 ∉ categoriesOf fanNodes := by
      decide
    exact absurd hcategory (hapart property hproperty)
  | ok node =>
    rw [(hsucceeds node hresult).1]
    rfl

end ThingTypes.ThingModel
