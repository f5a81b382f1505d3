import ThingTypes.Proofs.Json.Agreement
import ThingTypes.Proofs.Schema.Reading
import ThingTypes.Proofs.Schema.Skeleton

/-
  Structural identity of schemas. Two nodes agree if they say the same, all the way down, about
  everything that shapes a generated type: the type, the format, the declared values, the
  properties whatever their order, which of them are required, the alternatives in order, the
  keyword and the values of a map, and the items. Nothing else counts. Agreement is what the
  fingerprint decides.
-/

namespace ThingTypes

namespace SchemaInfo

/-- The same format, and the same declared values in the same order. -/
def Agrees (a b : SchemaInfo) : Prop :=
  a.format? = b.format? ∧ Option.Rel (List.Forall₂ Json.Agrees) a.enumeration? b.enumeration?

/-- Equal formats, and declared values that are equal once sorted. -/
def SameShape (a b : SchemaInfo) : Prop :=
  a.format? = b.format? ∧
    a.enumeration?.map (List.map Json.sorted) = b.enumeration?.map (List.map Json.sorted)

/-- Whether no declared value has two members of one key. -/
def HasDistinctKeys (info : SchemaInfo) : Prop :=
  ∀ values ∈ info.enumeration?, ∀ value ∈ values, value.hasDistinctKeys

theorem sameShape_iff_agrees {a b : SchemaInfo} (ha : a.HasDistinctKeys) (hb : b.HasDistinctKeys) :
    a.SameShape b ↔ a.Agrees b := by
  refine and_congr_right fun _ => map_eq_map_iff_rel.trans ?_
  refine rel_congr_mem fun values hvalues values' hvalues' => map_eq_map_iff_forall₂.trans ?_
  exact forall₂_congr_mem fun value hvalue value' hvalue' =>
    Json.sorted_eq_iff_agrees (ha values hvalues value hvalue) (hb values' hvalues' value' hvalue')

end SchemaInfo

namespace SchemaNode

mutual

def Agrees : SchemaNode → SchemaNode → Prop
  | mk info (.scalar kind), mk info' (.scalar kind') => info.Agrees info' ∧ kind = kind'
  | mk info .null, mk info' .null => info.Agrees info'
  | mk info (.array items), mk info' (.array items') => info.Agrees info' ∧ Agrees items items'
  | mk info (.object ⟨properties, required, oneOf?, mapValues?, _⟩),
    mk info' (.object ⟨properties', required', oneOf?', mapValues?', _⟩) =>
    info.Agrees info' ∧
      (properties.map Prod.fst).Perm (properties'.map Prod.fst) ∧
      propertiesAgree properties properties' ∧
      required = required' ∧
      alternativesAgree oneOf? oneOf?' ∧
      valuesAgree mapValues? mapValues?'
  | _, _ => False

/-- Each property agrees with the one of its name. -/
def propertiesAgree : List (String × SchemaNode) → List (String × SchemaNode) → Prop
  | [], _ => True
  | (name, node) :: rest, properties =>
    (∃ node', Entries.get? name properties = some node' ∧ Agrees node node') ∧
      propertiesAgree rest properties

def nodesAgree : List SchemaNode → List SchemaNode → Prop
  | [], [] => True
  | node :: rest, node' :: rest' => Agrees node node' ∧ nodesAgree rest rest'
  | _, _ => False

def alternativesAgree : Option (List SchemaNode) → Option (List SchemaNode) → Prop
  | none, none => True
  | some nodes, some nodes' => nodesAgree nodes nodes'
  | _, _ => False

/-- Maps of one keyword whose values agree; the text of a pattern does not count. -/
def valuesAgree : Option (MapValues SchemaNode) → Option (MapValues SchemaNode) → Prop
  | none, none => True
  | some ⟨keyword, schema⟩, some ⟨keyword', schema'⟩ =>
    keyword.name = keyword'.name ∧ Agrees schema schema'
  | _, _ => False

end

theorem propertiesAgree_iff {l m : List (String × SchemaNode)} :
    propertiesAgree l m ↔ ∀ p ∈ l, ∃ node, Entries.get? p.1 m = some node ∧ p.2.Agrees node := by
  induction l with
  | nil => simp [propertiesAgree]
  | cons p l ih =>
    obtain ⟨name, node⟩ := p
    rw [propertiesAgree, ih, List.forall_mem_cons]

theorem nodesAgree_iff {l m : List SchemaNode} : nodesAgree l m ↔ List.Forall₂ Agrees l m := by
  induction l generalizing m with
  | nil => cases m <;> simp [nodesAgree]
  | cons node l ih => cases m <;> simp [nodesAgree, ih]

theorem alternativesAgree_iff {a b : Option (List SchemaNode)} :
    alternativesAgree a b ↔ Option.Rel (List.Forall₂ Agrees) a b := by
  cases a <;> cases b <;> simp [alternativesAgree, nodesAgree_iff]

theorem valuesAgree_iff {a b : Option (MapValues SchemaNode)} :
    valuesAgree a b ↔
      Option.Rel (fun v w => v.keyword.name = w.keyword.name ∧ v.schema.Agrees w.schema) a b := by
  rcases a with _ | ⟨keyword, schema⟩ <;> rcases b with _ | ⟨keyword', schema'⟩ <;>
    simp [valuesAgree]

theorem agrees_object_iff {info info' : SchemaInfo} {shape shape' : ObjectSchema} :
    (mk info (.object shape)).Agrees (mk info' (.object shape')) ↔
      info.Agrees info' ∧
        (shape.properties.map Prod.fst).Perm (shape'.properties.map Prod.fst) ∧
        (∀ p ∈ shape.properties,
          ∃ node, Entries.get? p.1 shape'.properties = some node ∧ p.2.Agrees node) ∧
        shape.required = shape'.required ∧
        Option.Rel (List.Forall₂ Agrees) shape.oneOf? shape'.oneOf? ∧
        Option.Rel (fun v w => v.keyword.name = w.keyword.name ∧ v.schema.Agrees w.schema)
          shape.mapValues? shape'.mapValues? := by
  rw [← propertiesAgree_iff, ← alternativesAgree_iff, ← valuesAgree_iff]
  obtain ⟨properties, required, oneOf?, mapValues?, modelRef?⟩ := shape
  obtain ⟨properties', required', oneOf?', mapValues?', modelRef?'⟩ := shape'
  rw [Agrees]

/-! ## Distinct names -/

section DistinctNames

variable {info info' : SchemaInfo} {shape shape' : ObjectSchema} {a b items : SchemaNode}

theorem distinctKeys_of_info (ha : a.skeleton.hasDistinctKeys) : a.info.HasDistinctKeys := by
  intro values h value hvalue
  have henum := get?_enum a
  rw [Option.mem_def.mp h, Option.map_some] at henum
  exact (Json.hasDistinctKeys_iff.mp (Json.hasDistinctKeys_of_get? ha henum)).2 value hvalue

theorem distinctKeys_of_items (ha : (mk info (.array items)).skeleton.hasDistinctKeys) :
    items.skeleton.hasDistinctKeys :=
  Json.hasDistinctKeys_of_get? ha (get?_items items)

theorem distinctKeys_of_properties (ha : (mk info (.object shape)).skeleton.hasDistinctKeys) :
    (shape.properties.map Prod.fst).Nodup ∧
      ∀ p ∈ shape.properties, p.2.skeleton.hasDistinctKeys := by
  obtain ⟨hnames, hparts⟩ :=
    Json.hasDistinctKeys_iff.mp (Json.hasDistinctKeys_of_get? ha get?_properties)
  refine ⟨by simpa [Json.keys, Function.comp_def] using hnames, fun p hp => hparts _ ?_⟩
  exact List.mem_map.mpr ⟨_, List.mem_map.mpr ⟨p, hp, rfl⟩, rfl⟩

theorem distinctKeys_of_oneOf? (ha : (mk info (.object shape)).skeleton.hasDistinctKeys)
    {alternatives : List SchemaNode} (h : shape.oneOf? = some alternatives) {node : SchemaNode}
    (hnode : node ∈ alternatives) : node.skeleton.hasDistinctKeys := by
  have honeOf : (mk info (.object shape)).skeleton.get? "oneOf" = _ := get?_oneOf
  rw [h, Option.map_some] at honeOf
  exact (Json.hasDistinctKeys_iff.mp (Json.hasDistinctKeys_of_get? ha honeOf)).2 _
    (List.mem_map_of_mem hnode)

theorem distinctKeys_of_mapValues? (ha : (mk info (.object shape)).skeleton.hasDistinctKeys)
    {values : MapValues SchemaNode} (h : shape.mapValues? = some values) :
    values.schema.skeleton.hasDistinctKeys := by
  have hkeyword : (mk info (.object shape)).skeleton.get? values.keyword.name = _ :=
    get?_keyword values.keyword
  rw [h, Option.filter_some_pos (by simp), Option.map_some] at hkeyword
  exact Json.hasDistinctKeys_of_get? ha hkeyword

/-! ## What skeletons compare -/

theorem SameShape.info_eq (h : a.SameShape b) : a.info.SameShape b.info :=
  ⟨h.format?_eq, h.enumeration?_eq⟩

theorem info_agrees_iff (ha : a.skeleton.hasDistinctKeys) (hb : b.skeleton.hasDistinctKeys) :
    a.info.SameShape b.info ↔ a.info.Agrees b.info :=
  SchemaInfo.sameShape_iff_agrees (distinctKeys_of_info ha) (distinctKeys_of_info hb)

theorem SameShape.of_members (htype : a.typeName = b.typeName) (hinfo : a.info.SameShape b.info)
    (hown : a.ownMembers.map (fun m => (m.1, m.2.sorted)) =
      b.ownMembers.map fun m => (m.1, m.2.sorted)) : a.SameShape b := by
  have hcommon : a.commonSkeleton.map (fun m => (m.1, m.2.sorted)) =
      b.commonSkeleton.map fun m => (m.1, m.2.sorted) := by
    obtain ⟨hformat, henum⟩ := hinfo
    unfold commonSkeleton
    rw [htype, hformat]
    cases hvalues : a.info.enumeration? <;> cases hvalues' : b.info.enumeration? <;>
      rw [hvalues, hvalues'] at henum
    · cases henum
    · cases henum
    · simp only [Option.map_some, Option.some.injEq] at henum
      simp [Json.sorted, Json.sortedItems_eq, henum]
  rw [SameShape, skeleton_eq, skeleton_eq, Json.sorted, Json.sorted, Json.sortedMembers_eq,
    Json.sortedMembers_eq, List.map_append, List.map_append, hcommon, hown]

theorem sameShape_scalar_iff {kind kind' : ScalarKind} :
    (mk info (.scalar kind)).SameShape (mk info' (.scalar kind')) ↔
      info.SameShape info' ∧ kind = kind' := by
  refine ⟨fun h => ⟨h.info_eq, ?_⟩, ?_⟩
  · obtain ⟨_, hkind⟩ := h.of_scalar
    cases hkind
    rfl
  · rintro ⟨hinfo, rfl⟩
    exact .of_members rfl hinfo rfl

theorem sameShape_null_iff :
    (mk info .null).SameShape (mk info' .null) ↔ info.SameShape info' :=
  ⟨SameShape.info_eq, fun hinfo => .of_members rfl hinfo rfl⟩

theorem sameShape_array_iff {items' : SchemaNode} :
    (mk info (.array items)).SameShape (mk info' (.array items')) ↔
      info.SameShape info' ∧ items.SameShape items' := by
  refine ⟨fun h => ⟨h.info_eq, ?_⟩, fun ⟨hinfo, hitems⟩ => .of_members rfl hinfo ?_⟩
  · obtain ⟨_, _, hnode, hitems⟩ := h.of_array
    cases hnode
    exact hitems
  · change [("items", items.skeleton.sorted)] = [("items", items'.skeleton.sorted)]
    rw [hitems]

theorem map_sorted_shapeMembers (shape : ObjectSchema) :
    (shapeMembers shape).map (fun m => (m.1, m.2.sorted)) =
      [("properties", (Json.object (shape.properties.map fun p => (p.1, p.2.skeleton))).sorted)]
        ++ (if shape.required.isEmpty then [] else [("required", Json.strings shape.required)])
        ++ ((shape.oneOf?.map (List.map fun node => node.skeleton.sorted)).map
          fun items => ("oneOf", Json.array items)).toList
        ++ (shape.mapValues?.map fun v => (v.keyword.name, v.schema.skeleton.sorted)).toList := by
  have harray (nodes : List SchemaNode) : (Json.array (nodes.map skeleton)).sorted =
      .array (nodes.map fun node => node.skeleton.sorted) := by
    rw [Json.sorted, Json.sortedItems_eq, List.map_map]
    rfl
  unfold shapeMembers
  cases shape.required <;> cases shape.oneOf? <;> cases shape.mapValues? <;>
    simp [Json.sorted_strings, harray]

theorem sameShape_object_iff (hnames : (shape.properties.map Prod.fst).Nodup)
    (hnames' : (shape'.properties.map Prod.fst).Nodup) :
    (mk info (.object shape)).SameShape (mk info' (.object shape')) ↔
      info.SameShape info' ∧
        (shape.properties.map Prod.fst).Perm (shape'.properties.map Prod.fst) ∧
        (∀ p ∈ shape.properties,
          ∃ node, Entries.get? p.1 shape'.properties = some node ∧ p.2.SameShape node) ∧
        shape.required = shape'.required ∧
        Option.Rel (List.Forall₂ SameShape) shape.oneOf? shape'.oneOf? ∧
        Option.Rel (fun v w => v.keyword.name = w.keyword.name ∧ v.schema.SameShape w.schema)
          shape.mapValues? shape'.mapValues? := by
  have hproperties := map_perm_iff (f := fun node => node.skeleton.sorted) hnames hnames'
  constructor
  · intro h
    obtain ⟨properties, hperm, hsame⟩ := h.exists_properties_perm
    have hmap : shape.properties.map (fun p => (p.1, p.2.skeleton.sorted)) =
        properties.map fun p => (p.1, p.2.skeleton.sorted) :=
      map_eq_map_iff_forall₂.mpr (hsame.imp fun _ _ hp => Prod.ext hp.1 hp.2)
    obtain ⟨hkeys, hvalues⟩ := hproperties.mp (hmap ▸ hperm.map _)
    exact ⟨h.info_eq, hkeys, hvalues, h.required_eq, h.oneOf?_rel, h.mapValues?_rel⟩
  · rintro ⟨hinfo, hkeys, hvalues, hrequired, honeOf, hmap⟩
    have hsorted : (Json.object (shape.properties.map fun p => (p.1, p.2.skeleton))).sorted =
        (Json.object (shape'.properties.map fun p => (p.1, p.2.skeleton))).sorted := by
      rw [Json.sorted_object_eq_iff (by simpa [Function.comp_def] using hnames), List.map_map,
        List.map_map]
      exact hproperties.mpr ⟨hkeys, hvalues⟩
    have halternatives : shape.oneOf?.map (List.map fun node => node.skeleton.sorted) =
        shape'.oneOf?.map (List.map fun node => node.skeleton.sorted) := by
      simp only [map_eq_map_iff_rel, map_eq_map_iff_forall₂]
      exact honeOf
    have hmapValues : shape.mapValues?.map (fun v => (v.keyword.name, v.schema.skeleton.sorted)) =
        shape'.mapValues?.map fun v => (v.keyword.name, v.schema.skeleton.sorted) := by
      simp only [map_eq_map_iff_rel, Prod.mk.injEq]
      exact hmap
    refine .of_members rfl hinfo ?_
    change (shapeMembers shape).map _ = (shapeMembers shape').map _
    rw [map_sorted_shapeMembers, map_sorted_shapeMembers, hsorted, hrequired, halternatives,
      hmapValues]

/-- Schemas are of one shape exactly when they agree. -/
theorem sameShape_iff_agrees (ha : a.skeleton.hasDistinctKeys) (hb : b.skeleton.hasDistinctKeys) :
    a.SameShape b ↔ a.Agrees b := by
  induction a using byChildren generalizing b with
  | scalar info kind =>
    obtain ⟨info', kind' | _ | shape' | items'⟩ := b
    case scalar =>
      rw [sameShape_scalar_iff, Agrees]
      exact and_congr_left' (info_agrees_iff ha hb)
    all_goals
      refine iff_of_false (fun h => ?_) (by simp [Agrees])
      obtain ⟨_, hnode⟩ := h.of_scalar
      cases hnode
  | null info =>
    obtain ⟨info', kind' | _ | shape' | items'⟩ := b
    case null =>
      rw [sameShape_null_iff, Agrees]
      exact info_agrees_iff ha hb
    all_goals
      refine iff_of_false (fun h => ?_) (by simp [Agrees])
      obtain ⟨_, hnode⟩ := h.of_null
      cases hnode
  | array info items ih =>
    obtain ⟨info', kind' | _ | shape' | items'⟩ := b
    case array =>
      rw [sameShape_array_iff, Agrees]
      exact and_congr (info_agrees_iff ha hb)
        (ih (distinctKeys_of_items ha) (distinctKeys_of_items hb))
    all_goals
      refine iff_of_false (fun h => ?_) (by simp [Agrees])
      obtain ⟨_, _, hnode, _⟩ := h.of_array
      cases hnode
  | object info shape hproperties honeOf hmap =>
    obtain ⟨info', kind' | _ | shape' | items'⟩ := b
    case object =>
      obtain ⟨hnames, hdistinct⟩ := distinctKeys_of_properties ha
      obtain ⟨hnames', hdistinct'⟩ := distinctKeys_of_properties hb
      rw [sameShape_object_iff hnames hnames', agrees_object_iff]
      refine and_congr (info_agrees_iff ha hb) <| and_congr_right' <| and_congr ?_ <|
        and_congr_right' <| and_congr ?_ ?_
      · refine forall₂_congr fun p hp => exists_congr fun node => and_congr_right fun hnode => ?_
        exact hproperties p hp (hdistinct p hp) (hdistinct' _ (Entries.mem_of_get? hnode))
      · refine rel_congr_mem fun nodes hnodes nodes' hnodes' => ?_
        refine forall₂_congr_mem fun node hnode node' hnode' => ?_
        exact honeOf nodes hnodes node hnode (distinctKeys_of_oneOf? ha hnodes hnode)
          (distinctKeys_of_oneOf? hb hnodes' hnode')
      · refine rel_congr_mem fun values hvalues values' hvalues' => and_congr_right fun _ => ?_
        exact hmap values hvalues (distinctKeys_of_mapValues? ha hvalues)
          (distinctKeys_of_mapValues? hb hvalues')
    all_goals
      refine iff_of_false (fun h => ?_) (by simp [Agrees])
      obtain ⟨_, _, hnode⟩ := h.of_object
      cases hnode

/-! ## Nodes that have been read -/

theorem nodup_keys_skeleton (node : SchemaNode) :
    ((node.commonSkeleton ++ node.ownMembers).map Prod.fst).Nodup := by
  rw [List.map_append, List.nodup_append]
  refine ⟨?_, ?_, fun key hcommon key' hown heq => ?_⟩
  · unfold commonSkeleton
    cases node.info.format? <;> cases node.info.enumeration? <;> simp
  · obtain ⟨info, _ | _ | ⟨properties, required, oneOf?, mapValues?, modelRef?⟩ | _⟩ := node
    · exact .nil
    · exact .nil
    · cases required <;> cases oneOf? <;> rcases mapValues? with _ | ⟨_ | _, _⟩ <;>
        simp [ownMembers, shapeMembers, MapKeyword.name]
    · exact List.nodup_singleton _
  · subst heq
    have hmem : key ∈ ["type", "format", "enum"] := by
      by_contra hnot
      exact Entries.get?_eq_none_iff.mp (get?_common_of_not_mem node hnot) hcommon
    exact Entries.get?_eq_none_iff.mp (get?_own_of_mem node hmem) hown

theorem hasDistinctKeys_skeleton (hinfo : a.info.HasDistinctKeys)
    (hown : ∀ m ∈ a.ownMembers, m.2.hasDistinctKeys) : a.skeleton.hasDistinctKeys := by
  rw [skeleton_eq, Json.hasDistinctKeys_iff]
  refine ⟨nodup_keys_skeleton a, fun part hpart => ?_⟩
  obtain ⟨m, hm, rfl⟩ := List.mem_map.mp hpart
  rcases List.mem_append.mp hm with hm | hm
  · simp only [commonSkeleton, List.mem_append, List.mem_singleton, Option.mem_toList,
      Option.map_eq_some_iff] at hm
    rcases hm with (rfl | ⟨format, -, rfl⟩) | ⟨values, hvalues, rfl⟩
    · rfl
    · rfl
    · exact Json.hasDistinctKeys_iff.mpr ⟨List.nodup_nil, hinfo values hvalues⟩
  · exact hown m hm

/-- Where no key comes twice in a document, no key comes twice in the skeleton of what is read from
it. -/
theorem ReadFrom.hasDistinctKeys {j : Json} {node : SchemaNode} (hj : j.hasDistinctKeys)
    (h : ReadFrom j node) : node.skeleton.hasDistinctKeys := by
  induction hsize : sizeOf j using Nat.strong_induction_on generalizing j node with
  | _ size ih =>
  subst hsize
  obtain ⟨info, kind⟩ := node
  obtain ⟨members, rfl, hkind, henum⟩ := h.cases
  -- what stands under a keyword, and its parts, are smaller documents without repeated keys
  have hunder {key : String} {part : Json} (hpart : Entries.get? key members = some part) :
      part.hasDistinctKeys ∧ sizeOf part < sizeOf (Json.object members) :=
    ⟨Json.hasDistinctKeys_of_get? hj hpart,
      Json.sizeOf_lt_of_mem_parts (List.mem_map.mpr ⟨_, Entries.mem_of_get? hpart, rfl⟩)⟩
  have hpart {k part : Json} (hk : k.hasDistinctKeys ∧ sizeOf k < sizeOf (Json.object members))
      (hpart : part ∈ k.parts) :
      part.hasDistinctKeys ∧ sizeOf part < sizeOf (Json.object members) :=
    ⟨(Json.hasDistinctKeys_iff.mp hk.1).2 part hpart,
      (Json.sizeOf_lt_of_mem_parts hpart).trans hk.2⟩
  have hchild {k : Json} {child : SchemaNode}
      (hk : k.hasDistinctKeys ∧ sizeOf k < sizeOf (Json.object members))
      (hread : ReadFrom k child) : child.skeleton.hasDistinctKeys := ih _ hk.2 hk.1 hread rfl
  refine hasDistinctKeys_skeleton (fun values hvalues => ?_) fun m hm => ?_
  · exact (Json.hasDistinctKeys_iff.mp (hunder (henum values hvalues)).1).2
  cases kind with
  | scalar kind => cases hm
  | null => cases hm
  | array items =>
    obtain ⟨k, hk, hitems⟩ := hkind
    obtain rfl := List.mem_singleton.mp hm
    exact hchild (hunder hk) hitems
  | object shape =>
    obtain ⟨hproperties, honeOf, hmap⟩ := hkind
    simp only [ownMembers, shapeMembers, List.mem_append, List.mem_singleton, Option.mem_toList,
      Option.map_eq_some_iff] at hm
    rcases hm with ((rfl | hm) | ⟨nodes, hnodes, rfl⟩) | ⟨values, hvalues, rfl⟩
    · rcases hproperties with hnil | ⟨inner, hinner, hread⟩
      · rw [hnil]
        rfl
      have hnames : shape.properties.map Prod.fst = inner.map Prod.fst :=
        (map_eq_map_iff_forall₂.mpr (hread.imp fun _ _ hp => hp.1)).symm
      refine Json.hasDistinctKeys_iff.mpr ⟨?_, fun part hmem => ?_⟩
      · simpa [Json.keys, Function.comp_def, hnames] using
          (Json.hasDistinctKeys_iff.mp (hunder hinner).1).1
      · simp only [Json.parts, List.map_map, List.mem_map] at hmem
        obtain ⟨p, hp, rfl⟩ := hmem
        obtain ⟨m, hm, -, hpm⟩ := exists_left_of_forall₂ hread hp
        exact hchild (hpart (hunder hinner) (List.mem_map_of_mem hm)) hpm
    · split_ifs at hm
      · cases hm
      · obtain rfl := List.mem_singleton.mp hm
        exact Json.hasDistinctKeys_strings _
    · obtain ⟨items, hitems, hread⟩ := honeOf nodes hnodes
      refine Json.hasDistinctKeys_iff.mpr ⟨List.nodup_nil, fun part hmem => ?_⟩
      obtain ⟨node, hnode, rfl⟩ := List.mem_map.mp hmem
      obtain ⟨item, hitem, hnode⟩ := exists_left_of_forall₂ hread hnode
      exact hchild (hpart (hunder hitems) hitem) hnode
    · rcases hmap values hvalues with ⟨text, k, hpattern, -, hread⟩ | ⟨k, hadditional, -, hread⟩
      · exact hchild (hpart (hunder hpattern) (List.mem_singleton_self k)) hread
      · exact hchild (hunder hadditional) hread

end DistinctNames

/-- Nodes that have been read have one fingerprint exactly when they agree, unless the digest takes
their two descriptions for one. -/
theorem fingerprint_eq_iff_agrees {digest : Digest} {j k : Json} {path path' : String}
    {a b : SchemaNode} (hj : j.hasDistinctKeys) (hk : k.hasDistinctKeys)
    (ha : ofJson j path = .ok a) (hb : ofJson k path' = .ok b)
    (hdigest : Set.InjOn digest {a.skeleton.canonical, b.skeleton.canonical}) :
    a.fingerprint digest = b.fingerprint digest ↔ a.Agrees b := by
  rw [← sameShape_iff_agrees (ReadFrom.hasDistinctKeys hj ⟨path, ha⟩)
    (ReadFrom.hasDistinctKeys hk ⟨path', hb⟩)]
  calc a.fingerprint digest = b.fingerprint digest
      ↔ a.skeleton.canonical = b.skeleton.canonical :=
        hdigest.eq_iff (Set.mem_insert _ _) (Set.mem_insert_of_mem _ rfl)
    _ ↔ a.SameShape b := Json.canonical_eq_iff

/-- A schema of blinds. -/
def blindDocument : Json :=
  .object [("type", .string "object"), ("title", .string "Blind"),
    ("properties", .object [("up", .object [("type", .string "boolean")]),
      ("level", .object [("type", .string "integer"), ("description", .string "In percent")])]),
    ("patternProperties", .object [("^slat", .object [("type", .string "number")])])]

/-- The same schema in other words and in another order. -/
def shutterDocument : Json :=
  .object [("title", .string "Shutter"), ("type", .string "object"),
    ("patternProperties", .object [("^board", .object [("type", .string "number")])]),
    ("properties", .object [("level", .object [("type", .string "integer")]),
      ("up", .object [("type", .string "boolean")])])]

def blind : SchemaNode :=
  mk { title? := "Blind" } (.object {
    properties := [("up", mk {} (.scalar .boolean)),
      ("level", mk { description? := "In percent" } (.scalar .integer))]
    mapValues? := some ⟨.pattern "^slat", mk {} (.scalar .number)⟩ })

def shutter : SchemaNode :=
  mk { title? := "Shutter" } (.object {
    properties := [("level", mk {} (.scalar .integer)), ("up", mk {} (.scalar .boolean))]
    mapValues? := some ⟨.pattern "^board", mk {} (.scalar .number)⟩ })

theorem fingerprint_eq_iff_agrees_blind :
    blind.fingerprint .sha256 = shutter.fingerprint .sha256 ∧ blind.Agrees shutter := by
  have hblind : ofJson blindDocument "" = .ok blind := by rfl
  have hshutter : ofJson shutterDocument "" = .ok shutter := by rfl
  have hsame : blind.skeleton.canonical = shutter.skeleton.canonical := by decide +kernel
  have hfingerprint : blind.fingerprint .sha256 = shutter.fingerprint .sha256 :=
    congrArg Digest.sha256 hsame
  refine ⟨hfingerprint, (fingerprint_eq_iff_agrees (by decide) (by decide) hblind hshutter ?_).mp
    hfingerprint⟩
  rw [hsame, Set.pair_eq_singleton]
  exact Set.injOn_singleton _ _

end SchemaNode

end ThingTypes
