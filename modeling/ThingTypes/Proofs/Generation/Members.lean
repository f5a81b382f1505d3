import Mathlib.Tactic.FinCases
import Mathlib.Tactic.Set
import ThingTypes.Kotlin.Printer
import ThingTypes.Proofs.Generation.Assembled
import ThingTypes.Proofs.Generation.DistinctKeys
import ThingTypes.Proofs.Grouping
import ThingTypes.Proofs.Schema.Agreement

/-
  The names of members. Fields, methods and the parameters of enums are named after keys, and the
  keys of one object are distinct. So two members of a declaration have one name exactly when two
  different keys make the same name.
-/

namespace ThingTypes

open Resolution Catalog

/-! ## Schemas of a Thing -/

namespace SchemaNode

theorem hasDistinctKeys_children {node : SchemaNode} (h : node.skeleton.hasDistinctKeys) :
    ∀ child ∈ node.children, child.skeleton.hasDistinctKeys := by
  intro child hchild
  obtain ⟨info, kind | _ | shape | items⟩ := node
  · cases hchild
  · cases hchild
  · obtain ⟨property, hmem, rfl⟩ | ⟨alternatives, honeOf, hmem⟩ | ⟨values, hvalues, rfl⟩ :=
      mem_children_object.mp hchild
    · exact (distinctKeys_of_properties h).2 property hmem
    · exact distinctKeys_of_oneOf? h honeOf hmem
    · exact distinctKeys_of_mapValues? h hvalues
  · obtain rfl := mem_children_array.mp hchild
    exact distinctKeys_of_items h

theorem hasDistinctKeys_ofProperties {properties : List (String × SchemaNode)}
    (hnames : (properties.map Prod.fst).Nodup)
    (hnodes : ∀ property ∈ properties, property.2.skeleton.hasDistinctKeys)
    (required : List String) (title? : Option String) :
    (ofProperties properties required title?).skeleton.hasDistinctKeys := by
  refine hasDistinctKeys_skeleton nofun fun m hm => ?_
  simp only [ofProperties, ownMembers, shapeMembers, Option.map_none, Option.toList_none,
    List.append_nil, List.mem_append, List.mem_singleton] at hm
  rcases hm with rfl | hm
  · refine Json.hasDistinctKeys_iff.mpr ⟨?_, fun part hpart => ?_⟩
    · simpa [Json.keys, Function.comp_def] using hnames
    · simp only [Json.parts, List.map_map, List.mem_map] at hpart
      obtain ⟨property, hmem, rfl⟩ := hpart
      exact hnodes property hmem
  · split_ifs at hm
    · cases hm
    · obtain rfl := List.mem_singleton.mp hm
      exact Json.hasDistinctKeys_strings _

theorem hasDistinctKeys_actionEnumNode (keys : List String) :
    (Assembly.actionEnumNode keys).skeleton.hasDistinctKeys := by
  refine hasDistinctKeys_skeleton ?_ nofun
  rintro _ ⟨⟩ value hvalue
  obtain ⟨key, -, rfl⟩ := List.mem_map.mp hvalue
  rfl

end SchemaNode

namespace ThingModel

variable {model : ThingModel} {properties : List (String × SchemaNode)}

/-- The properties are read one by one, and keep their keys. -/
theorem propertyNodes_eq_ok (h : model.propertyNodes = .ok properties) :
    List.Forall₂ (fun e property => property.1 = e.1 ∧ SchemaNode.ReadFrom e.2 property.2)
      model.properties.entries properties := by
  refine (forall₂_of_mapM_ok h).imp fun e property hproperty => ?_
  obtain ⟨node, hnode, hpure⟩ := exists_of_bind_eq_ok hproperty
  cases hpure
  exact ⟨rfl, _, hnode⟩

theorem HasDistinctKeys.propertyNodes (hmodel : model.HasDistinctKeys)
    (h : model.propertyNodes = .ok properties) :
    (properties.map Prod.fst).Nodup ∧
      ∀ property ∈ properties, property.2.skeleton.hasDistinctKeys := by
  have hread := propertyNodes_eq_ok h
  refine ⟨?_, fun property hmem => ?_⟩
  · have hkeys : properties.map Prod.fst = model.properties.entries.map Prod.fst :=
      (map_eq_map_iff_forall₂.mpr (hread.imp fun _ _ h => h.1.symm)).symm
    rw [hkeys]
    exact model.properties.nodup
  · obtain ⟨e, he, -, hnode⟩ := exists_left_of_forall₂ hread hmem
    exact hnode.hasDistinctKeys (hmodel.properties e he)

theorem HasDistinctKeys.featureNode (hmodel : model.HasDistinctKeys) {location title : String}
    {node : SchemaNode} (h : model.featureNode location title = .ok node) :
    node.skeleton.hasDistinctKeys := by
  obtain ⟨nodes, hnodes, h⟩ := exists_of_bind_eq_ok h
  obtain ⟨hnames, hdistinct⟩ := hmodel.propertyNodes hnodes
  dsimp only at h
  split at h
  · cases h
  · rename_i hcollision
    cases h
    set groups := CategoryGroups.ofList (fun property : String × SchemaNode =>
      property.2.info.category?) nodes with hgroups
    have hungrouped : groups.ungrouped.Sublist nodes := by
      rw [hgroups, CategoryGroups.ungrouped_ofList]
      exact List.filter_sublist
    have hgrouped : ∀ e ∈ groups.grouped.entries, e.2.Sublist nodes := by
      rintro ⟨category, members⟩ he
      rw [OrderedMap.mem_entries_iff, hgroups, CategoryGroups.get?_grouped_ofList] at he
      split at he <;> cases he
      exact List.filter_sublist
    refine SchemaNode.hasDistinctKeys_ofProperties ?_ ?_ _ _
    · rw [featureProperties, List.map_append, List.map_map, List.nodup_append']
      refine ⟨groups.grouped.nodup, (hungrouped.map Prod.fst).nodup hnames, ?_⟩
      intro name hcategory hname
      have hmem : name ∈ groups.categories := hcategory
      exact List.find?_eq_none.mp hcollision name hname (List.contains_iff_mem.mpr hmem)
    · intro property hmem
      rcases List.mem_append.mp hmem with hmem | hmem
      · obtain ⟨e, he, rfl⟩ := List.mem_map.mp hmem
        have hmembers := hgrouped e he
        exact SchemaNode.hasDistinctKeys_ofProperties ((hmembers.map Prod.fst).nodup hnames)
          (fun property hmem => hdistinct property (hmembers.subset hmem)) _ _
      · exact hdistinct property (hungrouped.subset hmem)

end ThingModel

/-- Where no document repeats a key, no schema of the Thing does. -/
theorem LoadedThing.HasDistinctKeys.within {thing : LoadedThing} (h : thing.HasDistinctKeys) :
    thing.Within fun node => node.skeleton.hasDistinctKeys where
  children _ hnode := SchemaNode.hasDistinctKeys_children hnode
  actionEnum := SchemaNode.hasDistinctKeys_actionEnumNode
  attributes properties hproperties := by
    obtain ⟨hnames, hnodes⟩ := h.model.propertyNodes hproperties
    exact SchemaNode.hasDistinctKeys_ofProperties hnames hnodes _ _
  actions action hmem schema hschema path node hnode :=
    SchemaNode.ReadFrom.hasDistinctKeys (h.model.actions action hmem schema hschema) ⟨path, hnode⟩
  feature feature hmem _ _ hnode := (h.features feature hmem).featureNode hnode
  featureActions feature hmem action haction schema hschema path node hnode :=
    SchemaNode.ReadFrom.hasDistinctKeys
      ((h.features feature hmem).actions action haction schema hschema) ⟨path, hnode⟩

/-! ## Names from keys -/

/-- Different keys make different names. -/
def NamesApart (keys : List String) : Prop :=
  ∀ key ∈ keys, ∀ key' ∈ keys, Identifier.propertyName key = Identifier.propertyName key' →
    key = key'

theorem nodup_names_iff (keys : List String) :
    (keys.map Identifier.propertyName).Nodup ↔ keys.Nodup ∧ NamesApart keys := by
  constructor
  · intro h
    refine ⟨.of_map _ h, fun key hkey key' hkey' hsame => ?_⟩
    exact List.inj_on_of_nodup_map h hkey hkey' hsame
  · rintro ⟨hnodup, hapart⟩
    exact (List.nodup_map_iff_inj_on hnodup).mpr hapart

/-- Members that are named after their keys share a name where two keys are the same or make the
same name. -/
theorem nodup_names_of_keyed {members : List (String × String)} {keys : List String}
    (h : members = keyed keys) :
    members.map Prod.fst = keys ∧
      ((members.map Prod.snd).Nodup ↔ keys.Nodup ∧ NamesApart keys) := by
  subst h
  refine ⟨by simp [keyed, Function.comp_def], ?_⟩
  rw [← nodup_names_iff]
  simp [keyed, Function.comp_def]

theorem FieldDecl.names_of_keyed {fields : List FieldDecl} {keys : List String}
    (h : fields.map FieldDecl.member = keyed keys) :
    fields.map FieldDecl.jsonName = keys ∧
      ((fields.map FieldDecl.name).Nodup ↔ keys.Nodup ∧ NamesApart keys) := by
  have hnames := nodup_names_of_keyed h
  rwa [List.map_map, List.map_map] at hnames

/-! ## Enums of records -/

def EnumField.member (field : EnumField) : String × String := (field.jsonName, field.name)

namespace EnumContent

theorem declaredField_member {path : String} {property : String × SchemaNode} {field : EnumField}
    (h : declaredField path property = .ok field) :
    field.member = (property.1, Identifier.propertyName property.1) := by
  unfold declaredField at h
  split at h <;> cases h
  rfl

/-- A field is added only for a key that has none yet. -/
theorem inferFields_keyed {path : String} {entries : List (String × Json)} :
    ∀ {fields fields' : List EnumField} {keys : List String}, keys.Nodup →
      fields.map EnumField.member = keyed keys → inferFields path fields entries = .ok fields' →
      ∃ keys', keys'.Nodup ∧ fields'.map EnumField.member = keyed keys' := by
  induction entries with
  | nil =>
    intro fields fields' keys hnodup hfields h
    cases h
    exact ⟨keys, hnodup, hfields⟩
  | cons entry rest ih =>
    intro fields fields' keys hnodup hfields h
    rw [inferFields] at h
    split at h
    · exact ih hnodup hfields h
    · rename_i hfree
      split at h
      · have hkeys : fields.map EnumField.jsonName = keys := by
          have hfst := (nodup_names_of_keyed hfields).1
          rwa [List.map_map] at hfst
        have hnew : entry.1 ∉ keys := by
          rw [← hkeys]
          intro hmem
          obtain ⟨field, hfield, hsame⟩ := List.mem_map.mp hmem
          simp only [Bool.or_eq_true, List.any_eq_true, decide_eq_true_eq, not_or] at hfree
          exact hfree.2 ⟨field, hfield, hsame⟩
        have hkeys' : (keys ++ [entry.1]).Nodup :=
          List.nodup_append'.mpr ⟨hnodup, List.nodup_singleton _, by simpa using hnew⟩
        refine ih hkeys' ?_ h
        rw [List.map_append, hfields, keyed, keyed, List.map_append]
        rfl
      · cases h

/-- The fields of an enum of records are those of different keys. -/
theorem fields_of_records {digest : Digest} {properties : List (String × SchemaNode)}
    (hnames : (properties.map Prod.fst).Nodup) {values : List Json} {path : String}
    {content : EnumContent} (h : ofRecords digest properties values path = .ok content) :
    ∃ keys, keys.Nodup ∧ content.fields.map EnumField.member = keyed keys := by
  obtain ⟨declared, hdeclared, h⟩ := exists_of_bind_eq_ok h
  obtain ⟨records, -, h⟩ := exists_of_bind_eq_ok h
  dsimp only at h
  split at h
  · obtain ⟨fields, hfields, h⟩ := exists_of_bind_eq_ok h
    cases h
    exact inferFields_keyed List.nodup_nil rfl hfields
  · cases h
    refine ⟨_, hnames, ?_⟩
    have hmembers := (forall₂_of_mapM_ok hdeclared).imp fun _ _ h => (declaredField_member h).symm
    rw [keyed, List.map_map]
    exact (map_eq_map_iff_forall₂.mpr hmembers).symm

end EnumContent

namespace Kotlin

/-- The parameter for a field of this name. -/
def parameterName (name : String) : String :=
  if enumMembers.contains name then name ++ "Value" else name

theorem enumParameters_eq (fields : List EnumField) :
    fields.map enumParameter = (fields.map EnumField.name).map parameterName := by
  rw [List.map_map]
  rfl

/-- No two names are apart only in what is put behind the names that every enum has anyway. -/
def ParametersApart (names : List String) : Prop :=
  ∀ name ∈ enumMembers, name ∈ names → name ++ "Value" ∉ names

theorem nodup_parameters_iff {names : List String} :
    (names.map parameterName).Nodup ↔ names.Nodup ∧ ParametersApart names := by
  constructor
  · intro h
    refine ⟨.of_map _ h, fun name hmember hname hvalue => ?_⟩
    have hsame : parameterName name = parameterName (name ++ "Value") := by
      fin_cases hmember <;> rfl
    have hnil := List.inj_on_of_nodup_map h hname hvalue hsame
    simpa using congrArg String.length hnil
  · rintro ⟨hnodup, hapart⟩
    refine (List.nodup_map_iff_inj_on hnodup).mpr fun name hname name' hname' hsame => ?_
    unfold parameterName at hsame
    simp only [List.contains_iff_mem] at hsame
    split at hsame <;> split at hsame
    · exact (String.append_left_inj _).mp hsame
    · exact absurd (hsame ▸ hname') (hapart name ‹_› hname)
    · exact absurd (hsame ▸ hname) (hapart name' ‹_› hname')
    · exact hsame

end Kotlin

/-! ## Models -/

namespace GeneratedModel

/-- All enums of a model, those at the top level and those in classes. -/
def enums (model : GeneratedModel) : List EnumDecl :=
  model.catalog.enums.separate.values
    ++ model.catalog.classes.classes.values.flatMap ClassDecl.nestedEnums

/-- Where members of the model share names: only different keys that make one name do it, or in the
class of the Thing, features that are called alike. -/
structure MembersNamed (model : GeneratedModel) : Prop where
  fields : ∀ d ∈ model.catalog.classes.classes.values,
    (d.fields.map FieldDecl.name).Nodup ↔
      (d.fields.map FieldDecl.jsonName).Nodup ∧ NamesApart (d.fields.map FieldDecl.jsonName)
  keys : ∀ d ∈ model.catalog.classes.classes.values, d.key ≠ model.thing.key →
    (d.fields.map FieldDecl.jsonName).Nodup
  thing : ∃ d, model.thingClass? = some d ∧ d.fields.map FieldDecl.jsonName =
    (model.attributes?.map fun _ => "attributes").toList ++ model.features.map FeatureModel.name
  methods : ∀ i ∈ model.interfaces, (i.methods.map ActionMethod.jsonName).Nodup ∧
    ((i.methods.map ActionMethod.name).Nodup ↔ NamesApart (i.methods.map ActionMethod.jsonName))
  parameters : ∀ e ∈ model.enums, e.backing = .object →
    (e.fields.map EnumField.jsonName).Nodup ∧
    ((e.fields.map Kotlin.enumParameter).Nodup ↔
      NamesApart (e.fields.map EnumField.jsonName) ∧
        Kotlin.ParametersApart (e.fields.map EnumField.name))

theorem thingFields_keyed (attributes? : Option TypeName) (features : List FeatureModel) :
    (Assembly.thingFields attributes? features).map FieldDecl.member =
      keyed ((attributes?.map fun _ => "attributes").toList ++ features.map FeatureModel.name) := by
  cases attributes? <;> simp [Assembly.thingFields, keyed, FieldDecl.member, FieldDecl.ofKey]

theorem parameters_of_declared {digest : Digest} {e : EnumDecl}
    (h : e.IsFrom digest fun node => node.skeleton.hasDistinctKeys)
    (hbacking : e.backing = .object) :
    (e.fields.map EnumField.jsonName).Nodup ∧
    ((e.fields.map Kotlin.enumParameter).Nodup ↔
      NamesApart (e.fields.map EnumField.jsonName) ∧
        Kotlin.ParametersApart (e.fields.map EnumField.name)) := by
  obtain ⟨node, name, info, content, package, owner?, hnode, ⟨values, path, -, hcontent⟩, rfl⟩ := h
  obtain ⟨shape, hkind, hrecords⟩ := hcontent.resolve_left fun ⟨kind, _, hscalars⟩ => by
    have hbacking' := (EnumContent.isOf_of_scalars hscalars).2
    change content.backing = .object at hbacking
    rw [hbacking] at hbacking'
    cases hbacking'
  obtain ⟨info', kind⟩ := node
  cases hkind
  obtain ⟨keys, hnodup, hfields⟩ :=
    EnumContent.fields_of_records (SchemaNode.distinctKeys_of_properties hnode).1 hrecords
  obtain ⟨hkeys, hnames⟩ := nodup_names_of_keyed hfields
  rw [List.map_map] at hkeys hnames
  change content.fields.map EnumField.jsonName = keys at hkeys
  change ((content.fields.map EnumField.name).Nodup ↔ _) at hnames
  change (content.fields.map EnumField.jsonName).Nodup ∧
    ((content.fields.map Kotlin.enumParameter).Nodup ↔
      NamesApart (content.fields.map EnumField.jsonName) ∧
        Kotlin.ParametersApart (content.fields.map EnumField.name))
  rw [Kotlin.enumParameters_eq, Kotlin.nodup_parameters_iff, hnames, hkeys]
  exact ⟨hnodup, and_congr_left fun _ => and_iff_right hnodup⟩

namespace Assembled

variable {digest : Digest} {model : GeneratedModel} {c : Catalog} {d : ClassDecl}

/-- A class of the model is that of the Thing, or has been declared before it. -/
theorem class_cases {known : SchemaNode → Prop} (h : model.Assembled digest known c d)
    {d' : ClassDecl} (hd' : d' ∈ model.catalog.classes.classes.values) :
    d' = d ∨ ∃ k, c.classes.class? k = some d' := by
  obtain ⟨k, hk⟩ := (OrderedMap.mem_values_iff _ _).mp hd'
  change model.catalog.classes.class? k = some d' at hk
  rw [h.catalog, class?_addClass] at hk
  split at hk
  · cases hk
    exact .inl rfl
  · exact .inr ⟨k, hk⟩

section DistinctKeys

variable (h : model.Assembled digest (fun node => node.skeleton.hasDistinctKeys) c d)
include h

/-- The fields of a class that is declared before that of the Thing are those of different keys. -/
theorem keyed_of_class? {k : TypeKey} {d' : ClassDecl} (hd' : c.classes.class? k = some d') :
    ∃ keys, keys.Nodup ∧ d'.fields.map FieldDecl.member = keyed keys := by
  have hsourced := h.changes.sourced sourced_empty
  rcases hsourced.fields_from hd' with hnil | ⟨info, shape, hknown, hfields⟩
  · refine ⟨[], List.nodup_nil, ?_⟩
    rw [hnil]
    rfl
  · exact ⟨_, (SchemaNode.distinctKeys_of_properties hknown).1, hfields⟩

theorem keyed_of_thing : d.fields.map FieldDecl.member =
    keyed ((model.attributes?.map fun _ => "attributes").toList ++
      model.features.map FeatureModel.name) :=
  h.fields ▸ thingFields_keyed model.attributes? model.features

/-- All enums of the model come from schemas in which no object repeats a key. -/
theorem isFrom_of_mem_enums {e : EnumDecl} (he : e ∈ model.enums) :
    e.IsFrom digest fun node => node.skeleton.hasDistinctKeys := by
  have hsourced := h.changes.sourced sourced_empty
  rcases List.mem_append.mp he with he | he
  · obtain ⟨k, hk⟩ := (OrderedMap.mem_values_iff _ _).mp he
    rw [h.catalog] at hk
    exact hsourced.separate_from hk
  · obtain ⟨d', hd', he⟩ := List.mem_flatMap.mp he
    rcases h.class_cases hd' with rfl | ⟨k, hk⟩
    · rw [h.nestedEnums] at he
      cases he
    · exact hsourced.nested_from hk e he

theorem membersNamed : model.MembersNamed := by
  constructor
  · intro d' hd'
    have hkeyed : ∃ keys, d'.fields.map FieldDecl.member = keyed keys := by
      rcases h.class_cases hd' with rfl | ⟨k, hk⟩
      · exact ⟨_, h.keyed_of_thing⟩
      · obtain ⟨keys, -, hkeyed⟩ := h.keyed_of_class? hk
        exact ⟨keys, hkeyed⟩
    obtain ⟨keys, hkeyed⟩ := hkeyed
    obtain ⟨hkeys, hnames⟩ := FieldDecl.names_of_keyed hkeyed
    rw [hnames, hkeys]
  · intro d' hd' hne
    rcases h.class_cases hd' with rfl | ⟨k, hk⟩
    · exact absurd h.key hne
    · obtain ⟨keys, hnodup, hkeyed⟩ := h.keyed_of_class? hk
      rwa [(FieldDecl.names_of_keyed hkeyed).1]
  · refine ⟨d, ?_, (FieldDecl.names_of_keyed h.keyed_of_thing).1⟩
    rw [thingClass?, h.catalog, ← h.key]
    exact class?_addClass_self c d
  · intro i hi
    obtain ⟨keys, -, hnodup, hmethods⟩ := (h.interfaces i hi).methods
    have hnames := (nodup_names_of_keyed hmethods.members).2
    rw [List.map_map] at hnames
    rw [hmethods.jsonNames]
    exact ⟨hnodup, hnames.trans (and_iff_right hnodup)⟩
  · exact fun e he => parameters_of_declared (h.isFrom_of_mem_enums he)

end DistinctKeys

end Assembled

/-- In every model that is built from documents that repeat no key, two fields, two methods or two
parameters of an enum share a name only where two different keys make the same name, where an enum
has fields that differ by what is put behind the names of its own members, or where features of the
Thing are called alike. -/
theorem build_membersNamed {m : Type → Type} [Monad m] [LawfulMonad m] {load : Loader m}
    (hload : load.HasDistinctKeys) (o : GenerationOptions) (s : ResolutionSettings)
    (location package : String) :
    Yields (fun result => ∀ model, result = .ok model → model.MembersNamed)
      (GeneratedModel.build load o s location package) := by
  refine yields_build (Loading.yields_loadThing_hasDistinctKeys hload o location) ?_
  intro hvalid thing hthing model hmodel
  obtain ⟨c, d, h⟩ := ofThing_assembled hthing.within hvalid hmodel
  exact h.membersNamed

end GeneratedModel

/-- Two properties with keys that make one name. -/
def clashingProperties : List (String × Json) :=
  [("lamp.json", .object [("title", .string "Lamp"),
    ("properties", .object [("a-b", .object [("type", .string "integer")]),
      ("aB", .object [("type", .string "integer")])])])]

def clashingBuild : Id (Except GenerationError GeneratedModel) :=
  GeneratedModel.build (Loader.ofDocuments clashingProperties) {} { digest := plainDigest }
    "lamp.json" "p"

/-- The two fields have different keys and one name. -/
theorem clashingBuild_shares_name : ∃ model d, clashingBuild = .ok model ∧
    d ∈ model.catalog.classes.classes.values ∧ d.key = ⟨"p.attributes", "Attributes"⟩ ∧
    (d.fields.map FieldDecl.jsonName).Nodup ∧ ¬(d.fields.map FieldDecl.name).Nodup := by
  have hrun : (match clashingBuild with
      | .ok model => (model.thing.key, model.catalog.classes.classes.values.map fun d =>
          (d.key, d.fields.map FieldDecl.jsonName))
      | .error _ => (⟨"", ""⟩, [])) =
      (⟨"p", "Lamp"⟩, [(⟨"p.attributes", "Attributes"⟩, ["a-b", "aB"]),
        (⟨"p", "Lamp"⟩, ["attributes"])]) := by
    decide +kernel
  have hload : (Loader.ofDocuments clashingProperties : Loader Id).HasDistinctKeys :=
    Loader.hasDistinctKeys_ofDocuments (by decide)
  obtain ⟨proved, hproved⟩ :=
    GeneratedModel.build_membersNamed hload {} { digest := plainDigest } "lamp.json" "p"
  cases h : clashingBuild with
  | error e => simp [h] at hrun
  | ok model =>
    rw [h] at hrun
    obtain ⟨hthing, hclasses⟩ := Prod.mk.inj hrun
    obtain ⟨d, hd, hclass⟩ := List.mem_map.mp (hclasses ▸ List.mem_cons_self)
    obtain ⟨hkey, hkeys⟩ := Prod.mk.inj hclass
    have hnamed := proved.2 model (hproved.trans h)
    refine ⟨model, d, rfl, hd, hkey, hnamed.keys d hd ?_, fun hnodup => ?_⟩
    · rw [hkey, hthing]
      decide
    · have hapart := ((hnamed.fields d hd).mp hnodup).2
      rw [hkeys] at hapart
      exact absurd (hapart "a-b" (by simp) "aB" (by simp) (by decide +kernel)) (by decide)

end ThingTypes
