import ThingTypes.Proofs.EnumRegistration
import ThingTypes.Proofs.Resolution.EnumValues
import ThingTypes.Proofs.Resolution.Labels
import ThingTypes.Proofs.Schema.Agreement

/-
  What the order of keys does to an enum of records. Its fields come in the order of the declared
  properties, or else in the order in which the keys of the records first have a value. Which
  fields there are does not depend on the order, but the fingerprint is that of the fields in their
  order. So records that are written with their keys in another order make the same enum exactly
  where that leaves the order of the fields as it was (`ofRecords_reordered`).
-/

namespace ThingTypes

/-- Lists with the same distinct keys in the same order are equal, if they are so up to order. -/
theorem eq_of_perm_of_keys_eq {κ α : Type} {l m : List (κ × α)} (hperm : l.Perm m)
    (hn : (l.map Prod.fst).Nodup) (hkeys : l.map Prod.fst = m.map Prod.fst) : l = m := by
  rw [← List.forall₂_eq_eq_eq]
  refine (forall₂_congr_mem fun a ha b hb => ?_).mp (map_eq_map_iff_forall₂.mp hkeys)
  exact ⟨List.inj_on_of_nodup_map hn ha (hperm.mem_iff.mpr hb), congrArg Prod.fst⟩

namespace EnumContent

variable {digest : Digest} {path : String} {properties properties' : List (String × SchemaNode)}
  {values values' : List Json} {content content' : EnumContent}

/-! ## Fields in their order -/

/-- The members of the values that are not null, in the order in which they are written. -/
def presentEntries (values : List Json) : List (String × Json) :=
  values.flatMap fun value => (value.members?.getD []).filter (!·.2.isNull)

/-- The keys of entries in their order, each with the type of its first value. -/
def firstKinds (entries : List (String × Json)) : List (String × Option ScalarKind) :=
  (entries.map Prod.fst).eraseDups.map fun key =>
    (key, (Entries.get? key entries).bind ScalarKind.ofJson?)

/-- What the fields of an enum of records are made from: the declared properties, or the keys of the
records if none are declared. -/
def fieldKinds (properties : List (String × SchemaNode)) (values : List Json) :
    List (String × Option ScalarKind) :=
  if properties.isEmpty then firstKinds (presentEntries values)
  else properties.map fun property => (property.1, property.2.scalarKind?)

/-- The keys of the fields of an enum of records, in their order. -/
def fieldKeys (properties : List (String × SchemaNode)) (values : List Json) : List String :=
  (fieldKinds properties values).map Prod.fst

/-- The field of a key. Only scalars make fields. -/
def fieldOf? (e : String × Option ScalarKind) : Option EnumField :=
  e.2.map fun kind => ⟨e.1, Identifier.propertyName e.1, kind⟩

theorem jsonNames_of_mapM {kinds : List (String × Option ScalarKind)} {fields : List EnumField}
    (h : kinds.mapM fieldOf? = some fields) :
    fields.map EnumField.jsonName = kinds.map Prod.fst := by
  have hfields := map_eq_map_iff_forall₂.mp (mapM_eq_some_iff_map.mp h)
  refine (map_eq_map_iff_forall₂.mpr (hfields.imp fun e field hfield => ?_)).symm
  obtain ⟨kind, -, rfl⟩ := Option.map_eq_some_iff.mp hfield
  rfl

theorem toOption_mapM {α β ε : Type} {f : α → Except ε β} (l : List α) :
    (l.mapM f).toOption = l.mapM fun a => (f a).toOption := by
  induction l with
  | nil => rfl
  | cons a l ih =>
    rw [List.mapM_cons, List.mapM_cons, ← ih]
    cases f a with
    | error e => rfl
    | ok b => cases l.mapM f <;> rfl

theorem inferFields_append (l l' : List (String × Json)) :
    ∀ fields, inferFields path fields (l ++ l') =
      inferFields path fields l >>= fun fields => inferFields path fields l' := by
  induction l with
  | nil => exact fun _ => rfl
  | cons e l ih =>
    intro fields
    rw [List.cons_append, inferFields, inferFields]
    split
    · exact ih fields
    · split
      · exact ih _
      · rfl

/-- A value that is not null adds its key, unless that has had a value before. -/
theorem firstKinds_concat (entries : List (String × Json)) (key : String) (value : Json) :
    firstKinds (entries ++ [(key, value)]) =
      firstKinds entries ++
        if key ∈ entries.map Prod.fst then [] else [(key, ScalarKind.ofJson? value)] := by
  have hbefore : ∀ key' ∈ entries.map Prod.fst,
      Entries.get? key' (entries ++ [(key, value)]) = Entries.get? key' entries := by
    intro key' hmem
    obtain ⟨first, hfirst⟩ := Option.ne_none_iff_exists'.mp
      fun hnone => Entries.get?_eq_none_iff.mp hnone hmem
    rw [Entries.get?_append, hfirst, Option.some_or]
  unfold firstKinds
  rw [List.map_append, List.map_singleton, eraseDups_concat, List.map_append]
  congr 1
  · refine List.map_congr_left fun key' hmem => ?_
    rw [hbefore key' (List.mem_eraseDups.mp hmem)]
  · split
    · rfl
    · rename_i hnew
      have hnone : Entries.get? key entries = none := Entries.get?_eq_none_iff.mpr hnew
      simp [Entries.get?_append, hnone, Entries.get?]

/-- Each key makes a field where it first has a value. -/
theorem toOption_inferFields (entries : List (String × Json)) :
    (inferFields path [] entries).toOption =
      (firstKinds (entries.filter (!·.2.isNull))).mapM fieldOf? := by
  -- the fields so far are those of the entries before, so the induction is from the end
  induction entries using List.reverseRecOn with
  | nil => rfl
  | append_singleton entries e ih =>
    obtain ⟨key, value⟩ := e
    rw [inferFields_append, List.filter_append]
    cases hnull : value.isNull with
    | true =>
      have hlast : [(key, value)].filter (!·.2.isNull) = [] := by simp [hnull]
      rw [hlast, List.append_nil, ← ih]
      cases inferFields path [] entries with
      | error e => rfl
      | ok fields => simp [bind, Except.bind, inferFields, hnull]
    | false =>
      have hlast : [(key, value)].filter (!·.2.isNull) = [(key, value)] := by simp [hnull]
      rw [hlast, firstKinds_concat, List.mapM_append, ← ih]
      cases hfields : inferFields path [] entries with
      | error e => rfl
      | ok fields =>
        rw [hfields] at ih
        have hnames := jsonNames_of_mapM ih.symm
        have hheld : fields.any (·.jsonName = key) =
            decide (key ∈ (entries.filter (!·.2.isNull)).map Prod.fst) := by
          have hkeys : fields.any (·.jsonName = key) =
              decide (key ∈ fields.map EnumField.jsonName) := by
            simp [List.any_eq, eq_comm]
          rw [hkeys, hnames, firstKinds, List.map_map]
          simp [Function.comp_def]
        by_cases hkey : key ∈ (entries.filter (!·.2.isNull)).map Prod.fst
        · rw [if_pos hkey]
          simp [bind, Except.bind, inferFields, hheld, hkey]
        · rw [if_neg hkey]
          simp only [bind, Except.bind, inferFields, hheld, hkey, hnull]
          cases ScalarKind.ofJson? value <;> rfl

theorem toOption_declaredField (property : String × SchemaNode) :
    (declaredField path property).toOption = fieldOf? (property.1, property.2.scalarKind?) := by
  unfold declaredField fieldOf?
  cases property.2.scalarKind? <;> rfl

theorem toOption_recordMembers (value : Json) :
    (recordMembers path value).toOption = value.members? := by
  unfold recordMembers
  cases value.members? <;> rfl

theorem presentEntries_of_records {records : List (List (String × Json))}
    (h : values.mapM Json.members? = some records) :
    presentEntries values = records.flatten.filter (!·.2.isNull) := by
  have hrecords : values.map (fun value => value.members?.getD []) = records := by
    have hmap := congrArg (List.map (Option.getD · [])) (mapM_eq_some_iff_map.mp h)
    simpa [Function.comp_def] using hmap
  rw [List.filter_flatten, ← hrecords, List.map_map, presentEntries, List.flatMap_def]
  rfl

/-- An enum of records has the fields that its keys make, if its values are all records. -/
theorem toOption_ofRecords :
    (ofRecords digest properties values path).toOption.map EnumContent.fields =
      (values.mapM Json.members?).bind fun _ => (fieldKinds properties values).mapM fieldOf? := by
  have hdeclared : (properties.mapM (declaredField path)).toOption =
      (properties.map fun property => (property.1, property.2.scalarKind?)).mapM fieldOf? := by
    rw [toOption_mapM, List.mapM_map]
    congr 1
    funext property
    exact toOption_declaredField property
  have hrecords : (values.mapM (recordMembers path)).toOption = values.mapM Json.members? := by
    rw [toOption_mapM]
    congr 1
    funext value
    exact toOption_recordMembers value
  unfold ofRecords fieldKinds
  cases hvalues : values.mapM (recordMembers path) with
  | error e =>
    rw [hvalues] at hrecords
    rw [← hrecords]
    cases properties.mapM (declaredField path) <;> rfl
  | ok records =>
    rw [hvalues] at hrecords
    have hentries := presentEntries_of_records hrecords.symm
    rw [← hrecords, hentries]
    cases properties with
    | nil =>
      simp only [List.isEmpty_nil, if_true]
      have hinferred : (inferFields path [] records.flatten).toOption = _ := toOption_inferFields _
      rw [← hinferred]
      change (inferFields path [] records.flatten >>= _).toOption.map _ = _
      cases inferFields path [] records.flatten <;> rfl
    | cons property rest =>
      simp only [List.isEmpty_cons, Bool.false_eq_true, if_false]
      rw [← hdeclared]
      cases hfields : (property :: rest).mapM (declaredField path) with
      | error e => rfl
      | ok declared =>
        have hlength := (forall₂_of_mapM_ok hfields).length_eq
        have hnonempty : declared.isEmpty = false := by
          cases declared with
          | nil => cases hlength
          | cons field fields => rfl
        simp only [bind, Except.bind, hnonempty]
        rfl

theorem fields_of_ofRecords (h : ofRecords digest properties values path = .ok content) :
    (∃ records, values.mapM Json.members? = some records) ∧
      (fieldKinds properties values).mapM fieldOf? = some content.fields := by
  have heq : (ofRecords digest properties values path).toOption.map EnumContent.fields = _ :=
    toOption_ofRecords
  rw [h] at heq
  obtain ⟨records, hrecords, hfields⟩ := Option.bind_eq_some_iff.mp heq.symm
  exact ⟨⟨records, hrecords⟩, hfields⟩

theorem exists_ofRecords {records : List (List (String × Json))} {fields : List EnumField}
    (hrecords : values.mapM Json.members? = some records)
    (hfields : (fieldKinds properties values).mapM fieldOf? = some fields) :
    ∃ content, ofRecords digest properties values path = .ok content ∧ content.fields = fields := by
  have heq : (ofRecords digest properties values path).toOption.map EnumContent.fields = _ :=
    toOption_ofRecords
  rw [hrecords, Option.bind_some, hfields] at heq
  obtain ⟨content, hcontent, hsame⟩ := Option.map_eq_some_iff.mp heq
  refine ⟨content, ?_, hsame⟩
  cases hrun : ofRecords digest properties values path with
  | error e =>
    rw [hrun] at hcontent
    cases hcontent
  | ok content' =>
    rw [hrun] at hcontent
    cases hcontent
    rfl

/-! ## Another order -/

/-- The same declared properties and the same records, perhaps with their keys in another order. The
order of the records is the same. -/
structure Reordered (properties : List (String × SchemaNode)) (values : List Json)
    (properties' : List (String × SchemaNode)) (values' : List Json) : Prop where
  distinctNames : (properties.map Prod.fst).Nodup ∧ (properties'.map Prod.fst).Nodup
  distinctKeys : (∀ value ∈ values, value.hasDistinctKeys) ∧
    ∀ value ∈ values', value.hasDistinctKeys
  names : (properties.map Prod.fst).Perm (properties'.map Prod.fst)
  properties : ∀ property ∈ properties, ∃ node,
    Entries.get? property.1 properties' = some node ∧ property.2.Agrees node
  values : List.Forall₂ Json.Agrees values values'

theorem Reordered.sorted_eq (h : Reordered properties values properties' values') :
    values.map Json.sorted = values'.map Json.sorted := by
  refine map_eq_map_iff_forall₂.mpr ((forall₂_congr_mem fun value hvalue value' hvalue' => ?_).mp
    h.values)
  exact (Json.sorted_eq_iff_agrees (h.distinctKeys.1 value hvalue)
    (h.distinctKeys.2 value' hvalue')).symm

theorem scalarKind?_eq_of_agrees {node node' : SchemaNode} (h : node.Agrees node') :
    node.scalarKind? = node'.scalarKind? := by
  obtain ⟨info, kind | _ | ⟨_, _, _, _, _⟩ | items⟩ := node <;>
    obtain ⟨info', kind' | _ | ⟨_, _, _, _, _⟩ | items'⟩ := node' <;>
    simp_all [SchemaNode.Agrees, SchemaNode.scalarKind?, SchemaNode.kind]

theorem get?_filter_present {members : List (String × Json)} (hn : (members.map Prod.fst).Nodup)
    (key : String) :
    Entries.get? key (members.filter (!·.2.isNull)) =
      (Entries.get? key members).filter (!·.isNull) := by
  induction members with
  | nil => rfl
  | cons m members ih =>
    obtain ⟨key', value⟩ := m
    obtain ⟨hnew, hn⟩ := List.nodup_cons.mp hn
    by_cases hkey : key' = key
    · subst hkey
      have hnone : Entries.get? key' members = none := Entries.get?_eq_none_iff.mpr hnew
      cases hnull : value.isNull <;> simp [hnull, Entries.get?, ih hn, hnone, Option.filter]
    · cases hnull : value.isNull <;> simp [hnull, Entries.get?, ih hn, hkey]

/-- The first value of a key is that of the first record where it has one. -/
theorem get?_presentEntries (hvalues : ∀ value ∈ values, value.hasDistinctKeys) (key : String) :
    Entries.get? key (presentEntries values) =
      values.findSome? fun value => (value.get? key).filter (!·.isNull) := by
  induction values with
  | nil => rfl
  | cons value values ih =>
    have hkeys := (Json.hasDistinctKeys_iff.mp (hvalues value List.mem_cons_self)).1
    have hfirst : Entries.get? key ((value.members?.getD []).filter (!·.2.isNull)) =
        (value.get? key).filter (!·.isNull) := by
      cases value <;> first | rfl | exact get?_filter_present hkeys key
    rw [presentEntries, List.flatMap_cons, Entries.get?_append, ← presentEntries, hfirst,
      ih fun value hmem => hvalues value (List.mem_cons_of_mem _ hmem), List.findSome?_cons]
    cases (value.get? key).filter (!·.isNull) <;> rfl

/-- Which value that is does not depend on the order of keys. -/
theorem sorted_get?_presentEntries (hvalues : ∀ value ∈ values, value.hasDistinctKeys)
    (key : String) :
    (Entries.get? key (presentEntries values)).map Json.sorted =
      (values.map Json.sorted).findSome? fun value => (value.get? key).filter (!·.isNull) := by
  rw [get?_presentEntries hvalues, List.findSome?_map, List.map_findSome?]
  congr 1
  funext value
  change ((value.get? key).filter (!·.isNull)).map Json.sorted =
    (value.sorted.get? key).filter (!·.isNull)
  rw [Json.get?_sorted]
  cases value.get? key with
  | none => rfl
  | some found => cases found <;> rfl

theorem ofJson?_sorted (value : Json) :
    ScalarKind.ofJson? value.sorted = ScalarKind.ofJson? value := by
  cases value <;> rfl

/-- The same keys make fields of the same types. -/
theorem Reordered.fieldKinds_perm (h : Reordered properties values properties' values') :
    (fieldKinds properties values).Perm (fieldKinds properties' values') := by
  have hempty : properties'.isEmpty = properties.isEmpty := by
    have hlength := h.names.length_eq
    rw [List.length_map, List.length_map] at hlength
    rw [Bool.eq_iff_iff, List.isEmpty_iff_length_eq_zero, List.isEmpty_iff_length_eq_zero, hlength]
  have hfirst (key : String) : (Entries.get? key (presentEntries values)).map Json.sorted =
      (Entries.get? key (presentEntries values')).map Json.sorted := by
    rw [sorted_get?_presentEntries h.distinctKeys.1, sorted_get?_presentEntries h.distinctKeys.2,
      h.sorted_eq]
  unfold fieldKinds
  rw [hempty]
  split
  · have hkind (key : String) :
        (Entries.get? key (presentEntries values)).bind ScalarKind.ofJson? =
          (Entries.get? key (presentEntries values')).bind ScalarKind.ofJson? := by
      have hsorted := congrArg (Option.bind · ScalarKind.ofJson?) (hfirst key)
      simpa only [Option.bind_map, Function.comp_def, ofJson?_sorted] using hsorted
    have hkeys : ((presentEntries values).map Prod.fst).eraseDups.Perm
        ((presentEntries values').map Prod.fst).eraseDups := by
      refine (List.perm_ext_iff_of_nodup (nodup_eraseDups _) (nodup_eraseDups _)).mpr fun key => ?_
      rw [List.mem_eraseDups, List.mem_eraseDups, ← not_iff_not, ← Entries.get?_eq_none_iff,
        ← Entries.get?_eq_none_iff, ← Option.map_eq_none_iff (f := Json.sorted), hfirst,
        Option.map_eq_none_iff]
    unfold firstKinds
    simp only [hkind]
    exact hkeys.map _
  · refine (map_perm_iff h.distinctNames.1 h.distinctNames.2).mpr ⟨h.names, fun property hmem => ?_⟩
    obtain ⟨node, hnode, hagrees⟩ := h.properties property hmem
    exact ⟨node, hnode, scalarKind?_eq_of_agrees hagrees⟩

theorem nodup_fieldKeys (hn : (properties.map Prod.fst).Nodup) :
    (fieldKeys properties values).Nodup := by
  unfold fieldKeys fieldKinds
  split
  · rw [firstKinds, List.map_map]
    simpa [Function.comp_def] using nodup_eraseDups _
  · simpa [Function.comp_def] using hn

/-- Enums of the same records have one description exactly when their fields come in one order. -/
theorem Reordered.canonical_eq_iff (h : Reordered properties values properties' values')
    (hcontent : ofRecords digest properties values path = .ok content) {path' : String}
    (hcontent' : ofRecords digest properties' values' path' = .ok content') :
    (description .object content.fields values).canonical =
        (description .object content'.fields values').canonical ↔
      fieldKeys properties values = fieldKeys properties' values' := by
  obtain ⟨-, hfields⟩ := fields_of_ofRecords hcontent
  obtain ⟨-, hfields'⟩ := fields_of_ofRecords hcontent'
  have hnames (fields : List EnumField) :
      fields.map EnumField.jsonName = (fields.map EnumField.jsonKind).map Prod.fst := by
    rw [List.map_map]
    rfl
  rw [canonical_description_eq_iff]
  constructor
  · rintro ⟨-, hkinds, -⟩
    have hsame :
        content.fields.map EnumField.jsonName = content'.fields.map EnumField.jsonName := by
      rw [hnames, hnames, hkinds]
    rwa [jsonNames_of_mapM hfields, jsonNames_of_mapM hfields'] at hsame
  · intro hkeys
    have hkinds : fieldKinds properties values = fieldKinds properties' values' :=
      eq_of_perm_of_keys_eq h.fieldKinds_perm (nodup_fieldKeys h.distinctNames.1) hkeys
    rw [hkinds, hfields'] at hfields
    exact ⟨rfl, by rw [Option.some.inj hfields], h.sorted_eq⟩

/-- What the second of two registrations under a name that was free comes to. -/
theorem insertSeparate_second {c c' : EnumCatalog} {e e' : EnumDecl} (hkey : e'.key = e.key)
    (h : c.insertSeparate e = .ok (.inserted, c')) :
    c'.insertSeparate e' =
      if e.fingerprint = e'.fingerprint then .ok (.reused, c')
      else .error (.enumConflict e'.package e'.name e.constantNames e'.constantNames) := by
  cases htable : c.table.get? e.key with
  | none =>
    rw [EnumCatalog.insertSeparate_of_free htable] at h
    cases h
    split
    · rename_i hsame
      refine EnumCatalog.insertSeparate_of_same ?_
      rw [hkey, OrderedMap.get?_insert_self, hsame]
    · rename_i hother
      rw [EnumCatalog.insertSeparate_of_other ?_ hother]
      · rw [hkey, OrderedMap.get?_insert_self, Option.getD_some]
      · rw [hkey, OrderedMap.get?_insert_self]
  | some f =>
    by_cases hf : f = e.fingerprint
    · rw [EnumCatalog.insertSeparate_of_same (hf ▸ htable)] at h
      cases h
    · rw [EnumCatalog.insertSeparate_of_other htable hf] at h
      cases h

/-- Records with their keys in another order make an enum of the same fields, up to order. Unless
the digest takes their two descriptions for one, it has the same fingerprint exactly if the fields
come in the same order; and only then can it be registered where the first one stands. -/
theorem ofRecords_reordered (h : Reordered properties values properties' values')
    (hcontent : ofRecords digest properties values path = .ok content) (path' : String) :
    ∃ content', ofRecords digest properties' values' path' = .ok content' ∧
      content.fields.Perm content'.fields ∧
      (Set.InjOn digest {(description .object content.fields values).canonical,
          (description .object content'.fields values').canonical} →
        (content.fingerprint = content'.fingerprint ↔
          fieldKeys properties values = fieldKeys properties' values') ∧
        ∀ (name package : String) (info info' : SchemaInfo) (c c' : EnumCatalog),
          c.insertSeparate (Resolution.enumDecl name info content package none) =
            .ok (.inserted, c') →
          c'.insertSeparate (Resolution.enumDecl name info' content' package none) =
            if fieldKeys properties values = fieldKeys properties' values' then .ok (.reused, c')
            else .error (.enumConflict package name (content.constants.map EnumConstant.name)
              (content'.constants.map EnumConstant.name))) := by
  obtain ⟨⟨records, hrecords⟩, hfields⟩ := fields_of_ofRecords hcontent
  obtain ⟨fields', hfields', hperm⟩ := exists_mapM_of_perm h.fieldKinds_perm hfields
  have hrecords' : ∃ records', values'.mapM Json.members? = some records' := by
    refine exists_mapM_of_isSome fun value' hvalue' => ?_
    obtain ⟨value, hvalue, hagrees⟩ := exists_left_of_forall₂ h.values hvalue'
    have hmembers := isSome_of_mapM hrecords hvalue
    cases value <;> cases hmembers
    cases value' <;> simp_all [Json.Agrees, Json.members?]
  obtain ⟨records', hrecords'⟩ := hrecords'
  have hexists : ∃ content', ofRecords digest properties' values' path' = .ok content' ∧
      content'.fields = fields' := exists_ofRecords hrecords' hfields'
  obtain ⟨content', hcontent', rfl⟩ := hexists
  refine ⟨content', hcontent', hperm, fun hdigest => ?_⟩
  have hfingerprint : content.fingerprint = content'.fingerprint ↔
      fieldKeys properties values = fieldKeys properties' values' := by
    rw [(ofRecords_eq_ok hcontent).2.2, (ofRecords_eq_ok hcontent').2.2, Fingerprint.ofJson,
      Fingerprint.ofJson, ← h.canonical_eq_iff hcontent hcontent']
    exact hdigest.eq_iff (Set.mem_insert _ _) (Set.mem_insert_of_mem _ rfl)
  refine ⟨hfingerprint, fun name package info info' c c' hfirst => ?_⟩
  have hkey : (Resolution.enumDecl name info' content' package none).key =
      (Resolution.enumDecl name info content package none).key := rfl
  exact (insertSeparate_second hkey hfirst).trans (if_congr hfingerprint rfl rfl)

/-- A mode of a lamp. -/
def ecoMode : Json := .object [("name", .string "eco"), ("watts", .number (.integer 5))]

/-- The same mode, written from its end. -/
def turnedMode : Json := .object [("watts", .number (.integer 5)), ("name", .string "eco")]

/-- The two ways of writing the mode are refused as different enums. -/
theorem ofRecords_reordered_mode :
    ∃ content content' c',
      ofRecords plainDigest [] [ecoMode] "Mode" = .ok content ∧
      ofRecords plainDigest [] [turnedMode] "Mode" = .ok content' ∧
      content.fields.Perm content'.fields ∧ content.fingerprint ≠ content'.fingerprint ∧
      EnumCatalog.insertSeparate {} (Resolution.enumDecl "Mode" {} content "p" none) =
        .ok (.inserted, c') ∧
      c'.insertSeparate (Resolution.enumDecl "Mode" {} content' "p" none) =
        .error (.enumConflict "p" "Mode" ["ECO"] ["ECO"]) := by
  have hagrees : ecoMode.Agrees turnedMode :=
    (Json.sorted_eq_iff_agrees (by decide) (by decide)).mp rfl
  have hreordered : Reordered [] [ecoMode] [] [turnedMode] :=
    ⟨by simp, by simp [show ecoMode.hasDistinctKeys by decide,
      show turnedMode.hasDistinctKeys by decide], .refl _, nofun, .cons hagrees .nil⟩
  have hkeys : fieldKeys [] [ecoMode] ≠ fieldKeys [] [turnedMode] := by decide
  have hnames : ∀ value ∈ [ecoMode, turnedMode],
      (ofRecords plainDigest [] [value] "Mode").toOption.map
        (fun content => content.constants.map EnumConstant.name) = some ["ECO"] := by
    decide +kernel
  have hname := hnames ecoMode (by simp)
  cases hcontent : ofRecords plainDigest [] [ecoMode] "Mode" with
  | error e =>
    rw [hcontent] at hname
    cases hname
  | ok content =>
    obtain ⟨content', hcontent', hperm, h⟩ := ofRecords_reordered hreordered hcontent "Mode"
    obtain ⟨hfingerprint, hregister⟩ := h plainDigest_injective.injOn
    have hfree := EnumCatalog.insertSeparate_of_free (c := {})
      (e := Resolution.enumDecl "Mode" {} content "p" none) rfl
    have hsecond := hregister "Mode" "p" {} {} {} _ hfree
    have hname' := hnames turnedMode (by simp)
    rw [hcontent] at hname
    rw [hcontent'] at hname'
    have hconstants : content.constants.map EnumConstant.name = ["ECO"] := Option.some.inj hname
    have hconstants' : content'.constants.map EnumConstant.name = ["ECO"] := Option.some.inj hname'
    rw [if_neg hkeys, hconstants, hconstants'] at hsecond
    exact ⟨content, content', _, rfl, hcontent', hperm, fun h => hkeys (hfingerprint.mp h), hfree,
      hsecond⟩

end EnumContent

end ThingTypes
