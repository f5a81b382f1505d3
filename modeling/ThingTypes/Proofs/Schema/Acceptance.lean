import ThingTypes.Proofs.Json.Agreement
import ThingTypes.Proofs.Schema.Reading

/-
  Which values are read as schemas. The grammar is the least set of objects of the right form, where
  the form says what each keyword may hold and that the schemas inside are in the set again. Reading
  succeeds exactly on the grammar, wherever a value stands in its document.

  The form only looks members up by their keys. So a value is in the grammar exactly if it is with
  its members sorted, and the order of members decides nothing, at any depth.
-/

namespace ThingTypes

/-! ## The grammar -/

namespace Json

/-- A text, or `null` in its place. -/
def IsOptionalText (j : Json) : Prop :=
  j = null ∨ ∃ s, j = string s

end Json

namespace SchemaNode

/-- The names of the types. -/
def typeNames : List String :=
  ["boolean", "integer", "number", "string", "null", "object", "array"]

/-- The keywords of an object schema, with its inner schemas in `S`. -/
structure ObjectForm (S : Json → Prop) (members : List (String × Json)) : Prop where
  properties : ∀ j ∈ Entries.get? "properties" members,
    ∃ inner, j = .object inner ∧ ∀ m ∈ inner, S m.2
  required : ∀ j ∈ Entries.get? "required" members, ∃ names, j = Json.strings names
  oneOf : ∀ j ∈ Entries.get? "oneOf" members, ∃ items, j = .array items ∧ ∀ item ∈ items, S item
  patterns : ∀ j ∈ Entries.get? "patternProperties" members,
    ∃ inner, j = .object inner ∧ inner.length ≤ 1 ∧ ∀ m ∈ inner, S m.2
  /-- Where there is no pattern, the values may have a schema of their own. -/
  additional : (∀ m, Entries.get? "patternProperties" members ≠ some (.object [m])) →
    ∀ inner, Entries.get? "additionalProperties" members = some (.object inner) →
      S (.object inner)

/-- What a type asks of the other keywords, with the inner schemas in `S`. -/
structure TypeForm (S : Json → Prop) (members : List (String × Json)) (type : String) : Prop where
  oneOf : type ≠ "object" → Entries.get? "oneOf" members = none
  object : type = "object" → ObjectForm S members
  array : type = "array" →
    ∃ inner, Entries.get? "items" members = some (.object inner) ∧ S (.object inner)

/-- The members of a schema, with its inner schemas in `S`. -/
structure SchemaForm (S : Json → Prop) (members : List (String × Json)) : Prop where
  title : ∀ j ∈ Entries.get? "title" members, j.IsOptionalText
  description : ∀ j ∈ Entries.get? "description" members, j.IsOptionalText
  format : ∀ j ∈ Entries.get? "format" members, j.IsOptionalText
  category : ∀ j ∈ Entries.get? categoryKey members, j.IsOptionalText
  enumeration : ∀ j ∈ Entries.get? "enum" members, ∃ values, j = .array values
  type : ∃ type ∈ typeNames, Entries.get? "type" members = some (.string type) ∧
    TypeForm S members type

/-- The grammar: objects of the form of a schema, whose inner schemas are in the grammar. -/
inductive IsSchema : Json → Prop where
  | intro {S : Json → Prop} {members : List (String × Json)} :
    SchemaForm S members → (∀ j, S j → IsSchema j) → IsSchema (.object members)

/-! ## Inner schemas -/

/-- A member of the object, or a part of a member: inner schemas stand nowhere else. -/
def IsInside (members : List (String × Json)) (j : Json) : Prop :=
  ∃ m ∈ members, j = m.2 ∨ j ∈ m.2.parts

variable {members : List (String × Json)} {key : String} {j : Json} {S T : Json → Prop}

theorem isInside_of_get? (h : Entries.get? key members = some j) : IsInside members j :=
  ⟨(key, j), Entries.mem_of_get? h, .inl rfl⟩

theorem isInside_of_member {inner : List (String × Json)}
    (h : Entries.get? key members = some (.object inner)) {m : String × Json} (hm : m ∈ inner) :
    IsInside members m.2 :=
  ⟨(key, .object inner), Entries.mem_of_get? h, .inr (List.mem_map_of_mem hm)⟩

theorem isInside_of_item {items : List Json}
    (h : Entries.get? key members = some (.array items)) {item : Json} (hitem : item ∈ items) :
    IsInside members item :=
  ⟨(key, .array items), Entries.mem_of_get? h, .inr hitem⟩

/-- What holds of a value whenever it holds of everything inside of it holds of every value. -/
theorem byInside {P : Json → Prop}
    (other : ∀ j : Json, (∀ members, j ≠ .object members) → P j)
    (object : ∀ members, (∀ j, IsInside members j → P j) → P (.object members)) (j : Json) :
    P j := by
  have hboth : P j ∧ ∀ part ∈ j.parts, P part := by
    induction j using Json.byParts with
    | step j ih =>
      refine ⟨?_, fun part hpart => (ih part hpart).1⟩
      by_cases hobject : ∃ members, j = .object members
      · obtain ⟨members, rfl⟩ := hobject
        apply object
        rintro k ⟨m, hm, rfl | hk⟩
        · exact (ih m.2 (List.mem_map_of_mem hm)).1
        · exact (ih m.2 (List.mem_map_of_mem hm)).2 k hk
      · exact other j (not_exists.mp hobject)
  exact hboth.1

theorem ObjectForm.mono (h : ObjectForm S members) (hST : ∀ j, IsInside members j → S j → T j) :
    ObjectForm T members where
  properties j hj := by
    obtain ⟨inner, rfl, hinner⟩ := h.properties j hj
    exact ⟨inner, rfl, fun m hm => hST _ (isInside_of_member hj hm) (hinner m hm)⟩
  required := h.required
  oneOf j hj := by
    obtain ⟨items, rfl, hitems⟩ := h.oneOf j hj
    exact ⟨items, rfl, fun item hitem => hST _ (isInside_of_item hj hitem) (hitems item hitem)⟩
  patterns j hj := by
    obtain ⟨inner, rfl, hlength, hinner⟩ := h.patterns j hj
    exact ⟨inner, rfl, hlength, fun m hm => hST _ (isInside_of_member hj hm) (hinner m hm)⟩
  additional hnone inner hinner := hST _ (isInside_of_get? hinner) (h.additional hnone inner hinner)

theorem TypeForm.mono {type : String} (h : TypeForm S members type)
    (hST : ∀ j, IsInside members j → S j → T j) : TypeForm T members type where
  oneOf := h.oneOf
  object ht := (h.object ht).mono hST
  array ht := by
    obtain ⟨inner, hitems, hinner⟩ := h.array ht
    exact ⟨inner, hitems, hST _ (isInside_of_get? hitems) hinner⟩

theorem SchemaForm.mono (h : SchemaForm S members) (hST : ∀ j, IsInside members j → S j → T j) :
    SchemaForm T members where
  title := h.title
  description := h.description
  format := h.format
  category := h.category
  enumeration := h.enumeration
  type := by
    obtain ⟨type, hname, htype, hform⟩ := h.type
    exact ⟨type, hname, htype, hform.mono hST⟩

theorem isSchema_object_iff : IsSchema (.object members) ↔ SchemaForm IsSchema members := by
  constructor
  · rintro ⟨hform, hinner⟩
    exact hform.mono fun j _ => hinner j
  · exact fun h => .intro h fun _ => id

theorem not_isSchema (h : ∀ members, j ≠ .object members) : ¬IsSchema j := by
  rintro ⟨⟩
  exact h _ rfl

/-- The grammar is in every set that has all objects of the form over it. -/
theorem IsSchema.least (hS : ∀ members, SchemaForm S members → S (.object members))
    (h : IsSchema j) : S j := by
  induction h with
  | intro hform _ ih => exact hS _ (hform.mono fun j _ => ih j)

/-! ## What is accepted -/

/-- The computation returns. -/
def Returns {α : Type} (x : Except GenerationError α) : Prop :=
  ∃ a, x = .ok a

section Returns

variable {α β : Type} {x : Except GenerationError α} {f : α → Except GenerationError β} {p : Prop}

@[simp]
theorem returns_ok (a : α) : Returns (.ok a) := ⟨a, rfl⟩

@[simp]
theorem returns_pure (a : α) : Returns (pure a) := ⟨a, rfl⟩

@[simp]
theorem not_returns_error (e : GenerationError) : ¬Returns (.error e : Except _ α) := nofun

@[simp]
theorem not_returns_malformed (path : String) (fault : SchemaFault) :
    ¬Returns (malformed path fault : Except _ α) := nofun

@[simp]
theorem not_returns_unsupported (path : String) (fault : ShapeFault) :
    ¬Returns (unsupported path fault : Except _ α) := nofun

/-- Whether a sequence returns is up to its steps, where the later ones do not mind what the first
one gives. -/
theorem returns_bind_iff (h : ∀ a, x = .ok a → (Returns (f a) ↔ p)) :
    Returns (x >>= f) ↔ Returns x ∧ p := by
  cases x with
  | error e =>
    exact ⟨fun h => absurd h (not_returns_error e), fun h => absurd h.1 (not_returns_error e)⟩
  | ok a => exact (h a rfl).trans (and_iff_right (returns_ok a)).symm

@[simp]
theorem returns_ok_bind_iff {a : α} : Returns (Except.ok a >>= f) ↔ Returns (f a) := .rfl

@[simp]
theorem not_returns_error_bind (e : GenerationError) : ¬Returns (Except.error e >>= f) := nofun

theorem returns_map_iff {g : α → β} : Returns (x.map g) ↔ Returns x := by
  cases x <;> simp [Except.map]

end Returns

/-- A value is accepted exactly if it is in `S`, wherever it stands. -/
def DecidedBy (S : Json → Prop) (j : Json) : Prop :=
  ∀ path, Returns (ofJson j path) ↔ S j

variable {path : String}

theorem returns_readEntries_iff (h : ∀ m ∈ members, DecidedBy S m.2) (path : String) :
    Returns (readEntries members path) ↔ ∀ m ∈ members, S m.2 := by
  induction members with
  | nil => simp [readEntries]
  | cons m rest ih =>
    obtain ⟨hm, hrest⟩ := List.forall_mem_cons.mp h
    obtain ⟨name, j⟩ := m
    have hfirst : Returns (readOrRefuse (reading? j) (path ++ "/" ++ name)) ↔ S j := hm _
    rw [readEntries, returns_bind_iff (p := ∀ m ∈ rest, S m.2), hfirst, List.forall_mem_cons]
    intro node _
    rw [returns_bind_iff (p := True) fun _ _ => iff_of_true (returns_pure _) trivial, and_true,
      ih hrest]

theorem returns_readItemsFrom_iff {items : List Json} (h : ∀ item ∈ items, DecidedBy S item)
    (index : Nat) (path : String) :
    Returns (readItemsFrom items index path) ↔ ∀ item ∈ items, S item := by
  induction items generalizing index with
  | nil => simp [readItemsFrom]
  | cons j rest ih =>
    obtain ⟨hj, hrest⟩ := List.forall_mem_cons.mp h
    have hfirst : Returns (readOrRefuse (reading? j) (path ++ "/" ++ toString index)) ↔ S j := hj _
    rw [readItemsFrom, returns_bind_iff (p := ∀ item ∈ rest, S item), hfirst,
      List.forall_mem_cons]
    intro node _
    rw [returns_bind_iff (p := True) fun _ _ => iff_of_true (returns_pure _) trivial, and_true,
      ih hrest]

theorem returns_textField_iff :
    Returns (textField members key path) ↔ ∀ j ∈ Entries.get? key members, j.IsOptionalText := by
  rw [textField]
  cases Entries.get? key members with
  | none => simp
  | some j => cases j <;> simp [Json.IsOptionalText]

theorem mapM_string?_eq_some_iff {items : List Json} {texts : List String} :
    items.mapM Json.string? = some texts ↔ items = texts.map Json.string := by
  induction items generalizing texts with
  | nil => cases texts <;> simp
  | cons j items ih =>
    rw [mapM_cons_eq_some_iff]
    constructor
    · rintro ⟨text, rest, htext, hrest, rfl⟩
      cases j <;> cases htext
      rw [List.map_cons, ih.mp hrest]
    · intro h
      cases texts with
      | nil => cases h
      | cons text rest =>
        obtain ⟨rfl, hrest⟩ := List.cons.inj h
        exact ⟨text, rest, rfl, ih.mpr hrest, rfl⟩

theorem returns_requiredNames_iff :
    Returns (requiredNames members path) ↔
      ∀ j ∈ Entries.get? "required" members, ∃ names, j = Json.strings names := by
  rw [requiredNames]
  cases Entries.get? "required" members with
  | none => simp
  | some j =>
    cases j with
    | array names =>
      have hstrings : (∃ texts, names.mapM Json.string? = some texts) ↔
          ∃ texts, Json.array names = Json.strings texts := by
        simp only [Json.strings, Json.array.injEq, mapM_string?_eq_some_iff]
      simp only [Option.mem_some_iff, forall_eq', ← hstrings]
      cases names.mapM Json.string? <;> simp
    | _ => simp [Json.strings]

section Keywords

variable (hS : ∀ j, IsInside members j → DecidedBy S j)
include hS

theorem returns_readProperties_iff :
    Returns (readProperties members (keywordsOf members) path) ↔
      ∀ j ∈ Entries.get? "properties" members,
        ∃ inner, j = .object inner ∧ ∀ m ∈ inner, S m.2 := by
  rw [readProperties, keywordsOf]
  cases hvalue : Entries.get? "properties" members with
  | none => simp
  | some j =>
    cases j with
    | object inner =>
      have hread := returns_readEntries_iff
        (fun m hm => hS m.2 (isInside_of_member hvalue hm)) (path ++ "/properties")
      simpa [entriesReading?] using hread
    | _ => simp [entriesReading?]

theorem returns_readAlternatives_iff :
    Returns (readAlternatives members (keywordsOf members) path) ↔
      ∀ j ∈ Entries.get? "oneOf" members,
        ∃ items, j = .array items ∧ ∀ item ∈ items, S item := by
  rw [readAlternatives, keywordsOf]
  cases hvalue : Entries.get? "oneOf" members with
  | none => simp
  | some j =>
    cases j with
    | array items =>
      have hread := returns_readItemsFrom_iff
        (fun item hitem => hS item (isInside_of_item hvalue hitem)) 0 (path ++ "/oneOf")
      simpa [alternativesReading?, returns_map_iff] using hread
    | _ => simp [alternativesReading?]

theorem returns_readAdditional_iff :
    Returns (readAdditional (keywordsOf members) path) ↔
      ∀ inner, Entries.get? "additionalProperties" members = some (.object inner) →
        S (.object inner) := by
  rw [readAdditional, keywordsOf]
  cases hvalue : Entries.get? "additionalProperties" members with
  | none => simp
  | some j =>
    have hread := hS j (isInside_of_get? hvalue) (path ++ "/additionalProperties")
    cases j with
    | object inner =>
      simpa [ofJson, readOrRefuse, reading?, returns_map_iff] using hread
    | _ => simp [reading?]

theorem returns_readMapValues_iff :
    Returns (readMapValues members (keywordsOf members) path) ↔
      (∀ j ∈ Entries.get? "patternProperties" members,
        ∃ inner, j = .object inner ∧ inner.length ≤ 1 ∧ ∀ m ∈ inner, S m.2) ∧
      ((∀ m, Entries.get? "patternProperties" members ≠ some (.object [m])) →
        ∀ inner, Entries.get? "additionalProperties" members = some (.object inner) →
          S (.object inner)) := by
  rw [readMapValues]
  have hadditional : Returns (readAdditional (keywordsOf members) path) ↔ _ :=
    returns_readAdditional_iff hS
  cases hvalue : Entries.get? "patternProperties" members with
  | none => simpa using hadditional
  | some j =>
    have hpatterns : (keywordsOf members).patterns? = entriesReading? j := by
      rw [keywordsOf, hvalue, Option.bind_some]
    rw [hpatterns]
    cases j with
    | object patterns =>
      simp only [entriesReading?]
      obtain _ | ⟨⟨text, j⟩, _ | ⟨m', rest⟩⟩ := patterns
      · simpa [readEntries] using hadditional
      · have hread := returns_readEntries_iff
          (fun m hm => hS m.2 (isInside_of_member hvalue hm)) (path ++ "/patternProperties")
        rw [if_neg (by simp), returns_bind_iff (p := True), and_true, hread]
        · simp [Prod.forall]
        · intro entries hentries
          cases entriesReadFrom_of_readEntries hentries
          simp
      · simp
    | _ => simp

theorem returns_readObject_iff :
    Returns (readObject members (keywordsOf members) path) ↔ ObjectForm S members := by
  rw [readObject,
    returns_bind_iff fun _ _ => returns_bind_iff fun _ _ => returns_bind_iff fun _ _ =>
      returns_bind_iff fun _ _ => iff_of_true (returns_pure _) trivial,
    returns_readProperties_iff hS, returns_requiredNames_iff, returns_readAlternatives_iff hS,
    returns_readMapValues_iff hS, and_true]
  constructor
  · intro h
    obtain ⟨hproperties, hrequired, honeOf, hpatterns, hadditional⟩ := h
    exact ⟨hproperties, hrequired, honeOf, hpatterns, hadditional⟩
  · exact fun h => ⟨h.properties, h.required, h.oneOf, h.patterns, h.additional⟩

theorem returns_readItems_iff :
    Returns (readItems members (keywordsOf members) path) ↔
      ∃ inner, Entries.get? "items" members = some (.object inner) ∧ S (.object inner) := by
  rw [readItems]
  cases hvalue : Entries.get? "items" members with
  | none => simp
  | some j =>
    have hitems : (keywordsOf members).items? = reading? j := by
      rw [keywordsOf, hvalue, Option.bind_some]
    rw [hitems]
    have hread := hS j (isInside_of_get? hvalue) (path ++ "/items")
    cases j with
    | object inner => simpa [ofJson, readOrRefuse, reading?] using hread
    | _ => simp

theorem returns_readKind_iff :
    Returns (readKind members (keywordsOf members) path) ↔
      ∃ type ∈ typeNames, Entries.get? "type" members = some (.string type) ∧
        TypeForm S members type := by
  have hobject : Returns (readObject members (keywordsOf members) path) ↔ _ :=
    returns_readObject_iff hS
  have hitems : Returns (readItems members (keywordsOf members) path) ↔ _ :=
    returns_readItems_iff hS
  rw [readKind, declaredType]
  cases Entries.get? "type" members with
  | none => simp
  | some j =>
    cases j with
    | string declared =>
      have htype : (∃ type ∈ typeNames, some (Json.string declared) = some (.string type) ∧
          TypeForm S members type) ↔ declared ∈ typeNames ∧ TypeForm S members declared := by
        simp
      rw [returns_ok_bind_iff, htype]
      split_ifs with hrefused
      · obtain ⟨hne, hsome⟩ : declared ≠ "object" ∧ (Entries.get? "oneOf" members).isSome := by
          simpa using hrefused
        refine iff_of_false (not_returns_unsupported _ _) fun h => ?_
        rw [h.2.oneOf hne] at hsome
        cases hsome
      · have hnone : declared ≠ "object" → Entries.get? "oneOf" members = none := by
          simpa using hrefused
        have hform : TypeForm S members declared ↔ (declared = "object" → ObjectForm S members) ∧
            (declared = "array" →
              ∃ inner, Entries.get? "items" members = some (.object inner) ∧ S (.object inner)) :=
          ⟨fun h => ⟨h.object, h.array⟩, fun h => ⟨hnone, h.1, h.2⟩⟩
        rw [hform]
        split
        case h_6 =>
          rw [returns_bind_iff fun _ _ => iff_of_true (returns_pure _) trivial, hobject]
          simp [typeNames]
        case h_7 =>
          rw [returns_bind_iff fun _ _ => iff_of_true (returns_pure _) trivial, hitems]
          simp [typeNames]
        case h_8 => simp_all [typeNames]
        all_goals simp [typeNames]
    | array items => simp [unsupported]
    | _ => simp

end Keywords

theorem returns_readInfo_iff :
    Returns (readInfo members path) ↔
      (∀ j ∈ Entries.get? "enum" members, ∃ values, j = .array values) ∧
      (∀ j ∈ Entries.get? "title" members, j.IsOptionalText) ∧
      (∀ j ∈ Entries.get? "description" members, j.IsOptionalText) ∧
      (∀ j ∈ Entries.get? "format" members, j.IsOptionalText) ∧
      (∀ j ∈ Entries.get? categoryKey members, j.IsOptionalText) := by
  rw [readInfo]
  have htexts (enumeration? : Option (List Json)) : Returns (do
      let title? ← textField members "title" path
      let description? ← textField members "description" path
      let format? ← textField members "format" path
      let deprecated := ((Entries.get? "deprecated" members).bind Json.bool?).getD false
      let category? ← textField members categoryKey path
      return ({ title?, description?, format?, deprecated, category?, enumeration? } :
        SchemaInfo)) ↔ _ :=
    returns_bind_iff fun _ _ => returns_bind_iff fun _ _ => returns_bind_iff fun _ _ =>
      returns_bind_iff fun _ _ => iff_of_true (returns_pure _) trivial
  simp only [returns_textField_iff, and_true] at htexts
  cases Entries.get? "enum" members with
  | none => simpa using htexts none
  | some j =>
    cases j with
    | array values => simpa using htexts (some values)
    | _ => simp [malformed]

theorem returns_ofMembers_iff (hS : ∀ j, IsInside members j → DecidedBy S j) :
    Returns (ofMembers members (keywordsOf members) path) ↔ SchemaForm S members := by
  rw [ofMembers, returns_bind_iff fun _ _ => returns_bind_iff fun _ _ =>
      iff_of_true (returns_pure _) trivial,
    returns_readKind_iff hS, returns_readInfo_iff, and_true]
  constructor
  · intro h
    obtain ⟨htype, henum, htitle, hdescription, hformat, hcategory⟩ := h
    exact ⟨htitle, hdescription, hformat, hcategory, henum, htype⟩
  · exact fun h => ⟨h.type, h.enumeration, h.title, h.description, h.format, h.category⟩

/-- A value is accepted exactly if it is in the grammar. -/
theorem decidedBy_isSchema (j : Json) : DecidedBy IsSchema j := by
  induction j using byInside with
  | other j hother =>
    intro path
    refine iff_of_false ?_ (not_isSchema hother)
    cases j with
    | object members => exact absurd rfl (hother members)
    | _ => simp [ofJson, reading?, readOrRefuse]
  | object members ih =>
    intro path
    rw [ofJson_object, returns_ofMembers_iff ih, isSchema_object_iff]

/-! ## The order of members -/

section Reordered

variable {k : Json} {members' : List (String × Json)}

/-- What is an object, up to order, is an object with the same values, up to order. -/
theorem exists_object_of_sorted_eq {inner : List (String × Json)}
    (h : (Json.object inner).sorted = k.sorted) :
    ∃ inner', k = .object inner' ∧ inner.length = inner'.length ∧
      ∀ m' ∈ inner', ∃ m ∈ inner, m.2.sorted = m'.2.sorted := by
  cases k with
  | object inner' =>
    have hperm := Json.members_perm_of_sorted_eq h
    refine ⟨inner', rfl, by simpa using hperm.length_eq, fun m' hm' => ?_⟩
    obtain ⟨m, hm, hsame⟩ := List.mem_map.mp (hperm.mem_iff.mpr (List.mem_map_of_mem hm'))
    exact ⟨m, hm, (Prod.mk.inj hsame).2⟩
  | _ => simp [Json.sorted] at h

theorem exists_array_of_sorted_eq {items : List Json} (h : (Json.array items).sorted = k.sorted) :
    ∃ items', k = .array items' ∧ items.map Json.sorted = items'.map Json.sorted := by
  cases k with
  | array items' => exact ⟨items', rfl, Json.sorted_array_eq_iff.mp h⟩
  | _ => simp [Json.sorted] at h

theorem isOptionalText_of_sorted_eq (h : j.sorted = k.sorted) (hj : j.IsOptionalText) :
    k.IsOptionalText := by
  obtain rfl | ⟨text, rfl⟩ := hj <;> cases k <;> simp_all [Json.sorted, Json.IsOptionalText]

/-- The same members under the same keys, up to the order within. -/
def SameMembers (members members' : List (String × Json)) : Prop :=
  ∀ key, (Entries.get? key members).map Json.sorted = (Entries.get? key members').map Json.sorted

theorem sameMembers_of_sorted_eq
    (h : (Json.object members).sorted = (Json.object members').sorted) :
    SameMembers members members' := by
  intro key
  have hkey : (Json.object members).sorted.get? key = (Json.object members').sorted.get? key := by
    rw [h]
  rwa [Json.get?_sorted, Json.get?_sorted] at hkey

variable (hsame : SameMembers members members')
include hsame

theorem SameMembers.symm : SameMembers members' members := fun key => (hsame key).symm

theorem SameMembers.exists_get? (h : Entries.get? key members' = some k) :
    ∃ j, Entries.get? key members = some j ∧ j.sorted = k.sorted := by
  have hkey := hsame key
  rw [h, Option.map_some, Option.map_eq_some_iff] at hkey
  exact hkey

theorem SameMembers.get?_eq_none (h : Entries.get? key members = none) :
    Entries.get? key members' = none := by
  have hkey := hsame key
  rw [h, Option.map_none, eq_comm, Option.map_eq_none_iff] at hkey
  exact hkey

variable (hST : ∀ j, S j → ∀ k : Json, j.sorted = k.sorted → T k)
include hST

theorem ObjectForm.of_sameMembers (h : ObjectForm S members) : ObjectForm T members' where
  properties k hk := by
    obtain ⟨j, hj, hjk⟩ := hsame.exists_get? hk
    obtain ⟨inner, rfl, hinner⟩ := h.properties j hj
    obtain ⟨inner', rfl, -, hvalues⟩ := exists_object_of_sorted_eq hjk
    refine ⟨inner', rfl, fun m' hm' => ?_⟩
    obtain ⟨m, hm, hmm'⟩ := hvalues m' hm'
    exact hST _ (hinner m hm) _ hmm'
  required k hk := by
    obtain ⟨j, hj, hjk⟩ := hsame.exists_get? hk
    obtain ⟨names, rfl⟩ := h.required j hj
    obtain ⟨items', rfl, hitems⟩ := exists_array_of_sorted_eq hjk
    exact ⟨names, congrArg _ (Json.eq_strings_of_sorted hitems.symm)⟩
  oneOf k hk := by
    obtain ⟨j, hj, hjk⟩ := hsame.exists_get? hk
    obtain ⟨items, rfl, hitems⟩ := h.oneOf j hj
    obtain ⟨items', rfl, hvalues⟩ := exists_array_of_sorted_eq hjk
    refine ⟨items', rfl, fun item' hitem' => ?_⟩
    have hpairs := map_eq_map_iff_forall₂.mp hvalues
    obtain ⟨item, hitem, hsorted⟩ := exists_left_of_forall₂ hpairs hitem'
    exact hST _ (hitems item hitem) _ hsorted
  patterns k hk := by
    obtain ⟨j, hj, hjk⟩ := hsame.exists_get? hk
    obtain ⟨inner, rfl, hlength, hinner⟩ := h.patterns j hj
    obtain ⟨inner', rfl, hlength', hvalues⟩ := exists_object_of_sorted_eq hjk
    refine ⟨inner', rfl, hlength' ▸ hlength, fun m' hm' => ?_⟩
    obtain ⟨m, hm, hmm'⟩ := hvalues m' hm'
    exact hST _ (hinner m hm) _ hmm'
  additional hnone inner' hinner' := by
    obtain ⟨j, hj, hjk⟩ := hsame.exists_get? hinner'
    obtain ⟨inner, rfl, -, -⟩ := exists_object_of_sorted_eq hjk.symm
    refine hST _ (h.additional (fun m hm => ?_) inner hj) _ hjk
    -- A single pattern there would be a single pattern here.
    obtain ⟨k, hk, hmk⟩ := hsame.symm.exists_get? hm
    obtain ⟨patterns, rfl, hlength, -⟩ := exists_object_of_sorted_eq hmk.symm
    obtain ⟨m', rfl⟩ := List.length_eq_one_iff.mp hlength.symm
    exact hnone m' hk

theorem TypeForm.of_sameMembers {type : String} (h : TypeForm S members type) :
    TypeForm T members' type where
  oneOf hne := hsame.get?_eq_none (h.oneOf hne)
  object ht := (h.object ht).of_sameMembers hsame hST
  array ht := by
    obtain ⟨inner, hitems, hinner⟩ := h.array ht
    obtain ⟨k, hk, hkj⟩ := hsame.symm.exists_get? hitems
    obtain ⟨inner', rfl, -, -⟩ := exists_object_of_sorted_eq hkj.symm
    exact ⟨inner', hk, hST _ hinner _ hkj.symm⟩

theorem SchemaForm.of_sameMembers (h : SchemaForm S members) : SchemaForm T members' where
  title k hk := by
    obtain ⟨j, hj, hjk⟩ := hsame.exists_get? hk
    exact isOptionalText_of_sorted_eq hjk (h.title j hj)
  description k hk := by
    obtain ⟨j, hj, hjk⟩ := hsame.exists_get? hk
    exact isOptionalText_of_sorted_eq hjk (h.description j hj)
  format k hk := by
    obtain ⟨j, hj, hjk⟩ := hsame.exists_get? hk
    exact isOptionalText_of_sorted_eq hjk (h.format j hj)
  category k hk := by
    obtain ⟨j, hj, hjk⟩ := hsame.exists_get? hk
    exact isOptionalText_of_sorted_eq hjk (h.category j hj)
  enumeration k hk := by
    obtain ⟨j, hj, hjk⟩ := hsame.exists_get? hk
    obtain ⟨values, rfl⟩ := h.enumeration j hj
    obtain ⟨values', rfl, -⟩ := exists_array_of_sorted_eq hjk
    exact ⟨values', rfl⟩
  type := by
    obtain ⟨type, hname, htype, hform⟩ := h.type
    obtain ⟨k, hk, hkj⟩ := hsame.symm.exists_get? htype
    refine ⟨type, hname, ?_, hform.of_sameMembers hsame hST⟩
    cases k <;> simp_all [Json.sorted]

end Reordered

/-- What is equal to a schema once sorted is a schema. -/
theorem IsSchema.of_sorted_eq (h : IsSchema j) {k : Json} (hjk : j.sorted = k.sorted) :
    IsSchema k := by
  refine IsSchema.least (S := fun j => ∀ k : Json, j.sorted = k.sorted → IsSchema k) ?_ h k hjk
  intro members hform k hjk
  obtain ⟨members', rfl, -, -⟩ := exists_object_of_sorted_eq hjk
  exact isSchema_object_iff.mpr (hform.of_sameMembers (sameMembers_of_sorted_eq hjk) fun _ hj => hj)

/-- A value is read as a schema exactly if it is in the grammar, wherever it stands in its document;
and so is every value that differs from it in the order of members only. -/
theorem accepted_iff_isSchema (j : Json) :
    (∀ path, (∃ node, ofJson j path = .ok node) ↔ IsSchema j) ∧
    ∀ k : Json, j.hasDistinctKeys → k.hasDistinctKeys → j.Agrees k → ∀ path path',
      (∃ node, ofJson j path = .ok node) ↔ ∃ node, ofJson k path' = .ok node := by
  refine ⟨decidedBy_isSchema j, fun k hj hk hagrees path path' => ?_⟩
  have hsorted : j.sorted = k.sorted := (Json.sorted_eq_iff_agrees hj hk).mpr hagrees
  have hschema : IsSchema j ↔ IsSchema k :=
    ⟨fun h => h.of_sorted_eq hsorted, fun h => h.of_sorted_eq hsorted.symm⟩
  exact (decidedBy_isSchema j path).trans (hschema.trans (decidedBy_isSchema k path').symm)

/-- A schema whose empty list of patterns leaves the values to the next keyword. -/
def zonesSchema : Json :=
  .object [("patternProperties", .object []), ("type", .string "object"),
    ("additionalProperties", .object [("type", .string "null"), ("title", .null)])]

/-- The same with its keys in another order. -/
def reorderedZonesSchema : Json :=
  .object [("additionalProperties", .object [("title", .null), ("type", .string "null")]),
    ("type", .string "object"), ("patternProperties", .object [])]

theorem accepted_iff_isSchema_zones :
    zonesSchema.hasDistinctKeys ∧ reorderedZonesSchema.hasDistinctKeys ∧
      zonesSchema.Agrees reorderedZonesSchema ∧
      IsSchema zonesSchema ∧ (∃ node, ofJson reorderedZonesSchema "#/zones" = .ok node) ∧
      ¬IsSchema (.object [("type", .string "array"), ("items", .array [zonesSchema])]) := by
  have hkeys : zonesSchema.hasDistinctKeys := by decide
  have hkeys' : reorderedZonesSchema.hasDistinctKeys := by decide
  have hagrees : zonesSchema.Agrees reorderedZonesSchema := by
    rw [zonesSchema, reorderedZonesSchema, Json.Agrees, Json.membersAgree, Json.membersAgree,
      Json.membersAgree, Json.membersAgree]
    refine ⟨by decide, ⟨_, rfl, ?_⟩, ⟨_, rfl, ?_⟩, ⟨_, rfl, ?_⟩, trivial⟩
    · simp [Json.Agrees, Json.membersAgree]
    · simp [Json.Agrees]
    · rw [Json.Agrees, Json.membersAgree, Json.membersAgree, Json.membersAgree]
      exact ⟨by decide, ⟨_, rfl, by simp [Json.Agrees]⟩, ⟨_, rfl, by simp [Json.Agrees]⟩, trivial⟩
  have haccepted : ∃ node, ofJson zonesSchema "#" = .ok node := ⟨_, rfl⟩
  obtain ⟨hgrammar, horder⟩ := accepted_iff_isSchema zonesSchema
  have hschema := (hgrammar "#").mp haccepted
  have hreordered := (horder reorderedZonesSchema hkeys hkeys' hagrees "#" "#/zones").mp haccepted
  refine ⟨hkeys, hkeys', hagrees, hschema, hreordered, ?_⟩
  intro h
  obtain ⟨node, hnode⟩ := ((accepted_iff_isSchema _).1 "#").mpr h
  cases hnode

end SchemaNode

end ThingTypes
