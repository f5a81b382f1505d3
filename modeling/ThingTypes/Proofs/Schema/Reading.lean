import Mathlib.Data.List.Forall2
import ThingTypes.Proofs.Json.Parts
import ThingTypes.Schema.Reader

/-
  What a node that has been read says about the document it was read from. Its children were read
  from the values under the keywords that lead to them, and its declared values stand under
  `enum`.
-/

namespace ThingTypes

/-- A sequence that returns has returned at every step. -/
theorem exists_of_bind_eq_ok {ε α β : Type} {x : Except ε α} {f : α → Except ε β} {b : β}
    (h : x >>= f = .ok b) : ∃ a, x = .ok a ∧ f a = .ok b := by
  cases x with
  | error e => cases h
  | ok a => exact ⟨a, rfl, h⟩

theorem exists_of_map_eq_ok {ε α β : Type} {x : Except ε α} {f : α → β} {b : β}
    (h : x.map f = .ok b) : ∃ a, x = .ok a ∧ f a = b := by
  cases x with
  | error e => cases h
  | ok a => exact ⟨a, rfl, Except.ok.inj h⟩

theorem exists_left_of_forall₂ {α β : Type} {R : α → β → Prop} {l : List α} {m : List β}
    (h : List.Forall₂ R l m) {b : β} (hb : b ∈ m) : ∃ a ∈ l, R a b := by
  induction h with
  | nil => cases hb
  | cons hab _ ih =>
    rcases List.mem_cons.mp hb with rfl | hb
    · exact ⟨_, List.mem_cons_self, hab⟩
    · obtain ⟨a, ha, hab⟩ := ih hb
      exact ⟨a, List.mem_cons_of_mem _ ha, hab⟩

namespace SchemaNode

variable {members : List (String × Json)} {path : String}

/-! ## Keywords -/

theorem schemaUnder_eq (key : String) (members : List (String × Json)) :
    schemaUnder key members = (Entries.get? key members).bind reading? := by
  induction members with
  | nil => rw [schemaUnder, Entries.get?, Option.bind_none]
  | cons m members ih =>
    obtain ⟨name, j⟩ := m
    rw [schemaUnder, Entries.get?, ih]
    split <;> rfl

theorem entriesUnder_eq (key : String) (members : List (String × Json)) :
    entriesUnder key members = (Entries.get? key members).bind entriesReading? := by
  induction members with
  | nil => rw [entriesUnder, Entries.get?, Option.bind_none]
  | cons m members ih =>
    obtain ⟨name, j⟩ := m
    rw [entriesUnder, Entries.get?, ih]
    split <;> rfl

theorem alternativesUnder_eq (key : String) (members : List (String × Json)) :
    alternativesUnder key members = (Entries.get? key members).bind alternativesReading? := by
  induction members with
  | nil => rw [alternativesUnder, Entries.get?, Option.bind_none]
  | cons m members ih =>
    obtain ⟨name, j⟩ := m
    rw [alternativesUnder, Entries.get?, ih]
    split <;> rfl

/-- How the keywords of an object read. -/
def keywordsOf (members : List (String × Json)) : Keywords where
  properties? := (Entries.get? "properties" members).bind entriesReading?
  oneOf? := (Entries.get? "oneOf" members).bind alternativesReading?
  patterns? := (Entries.get? "patternProperties" members).bind entriesReading?
  additional? := (Entries.get? "additionalProperties" members).bind reading?
  items? := (Entries.get? "items" members).bind reading?

theorem ofJson_object (members : List (String × Json)) (path : String) :
    ofJson (.object members) path = ofMembers members (keywordsOf members) path := by
  simp only [ofJson, readOrRefuse, reading?, schemaUnder_eq, entriesUnder_eq, alternativesUnder_eq]
  rfl

/-! ## Children -/

/-- A node read from a value, wherever that stands. -/
def ReadFrom (j : Json) (node : SchemaNode) : Prop :=
  ∃ path, ofJson j path = .ok node

/-- Nodes read from the members of an object, under the same names. -/
def EntriesReadFrom : List (String × Json) → List (String × SchemaNode) → Prop :=
  List.Forall₂ fun m p => m.1 = p.1 ∧ ReadFrom m.2 p.2

theorem entriesReadFrom_of_readEntries {entries : List (String × SchemaNode)}
    (h : readEntries members path = .ok entries) : EntriesReadFrom members entries := by
  induction members generalizing entries with
  | nil =>
    rw [readEntries] at h
    cases h
    exact .nil
  | cons m members ih =>
    obtain ⟨name, j⟩ := m
    rw [readEntries] at h
    obtain ⟨node, hnode, h⟩ := exists_of_bind_eq_ok h
    obtain ⟨nodes, hnodes, h⟩ := exists_of_bind_eq_ok h
    cases h
    exact .cons ⟨rfl, _, hnode⟩ (ih hnodes)

theorem forall₂_readFrom_of_readItemsFrom {items : List Json} {index : Nat}
    {nodes : List SchemaNode} (h : readItemsFrom items index path = .ok nodes) :
    List.Forall₂ ReadFrom items nodes := by
  induction items generalizing index nodes with
  | nil =>
    rw [readItemsFrom] at h
    cases h
    exact .nil
  | cons j items ih =>
    rw [readItemsFrom] at h
    obtain ⟨node, hnode, h⟩ := exists_of_bind_eq_ok h
    obtain ⟨nodes, hnodes, h⟩ := exists_of_bind_eq_ok h
    cases h
    exact .cons ⟨_, hnode⟩ (ih hnodes)

theorem readFrom_of_reading? {j : Json} {read : Read SchemaNode} {node : SchemaNode}
    (hread : reading? j = some read) (h : read path = .ok node) : ReadFrom j node :=
  ⟨path, by simpa only [ofJson, readOrRefuse, hread] using h⟩

/-- What the children of an object were read from. -/
structure ShapeReadFrom (members : List (String × Json)) (shape : ObjectSchema) : Prop where
  properties : shape.properties = [] ∨
    ∃ inner, Entries.get? "properties" members = some (.object inner) ∧
      EntriesReadFrom inner shape.properties
  oneOf? : ∀ nodes, shape.oneOf? = some nodes →
    ∃ items, Entries.get? "oneOf" members = some (.array items) ∧
      List.Forall₂ ReadFrom items nodes
  mapValues? : ∀ values, shape.mapValues? = some values →
    (∃ text j, Entries.get? "patternProperties" members = some (.object [(text, j)]) ∧
      values.keyword = .pattern text ∧ ReadFrom j values.schema) ∨
    ∃ j, Entries.get? "additionalProperties" members = some j ∧
      values.keyword = .additional ∧ ReadFrom j values.schema

theorem properties_readFrom {properties : List (String × SchemaNode)}
    (h : readProperties members (keywordsOf members) path = .ok properties) :
    properties = [] ∨ ∃ inner, Entries.get? "properties" members = some (.object inner) ∧
      EntriesReadFrom inner properties := by
  rw [readProperties, keywordsOf] at h
  cases hvalue : Entries.get? "properties" members with
  | none =>
    rw [hvalue] at h
    cases h
    exact .inl rfl
  | some j =>
    rw [hvalue] at h
    cases j <;> simp only [Option.bind_some, entriesReading?] at h
    case object inner => exact .inr ⟨inner, rfl, entriesReadFrom_of_readEntries h⟩
    all_goals cases h

theorem alternatives_readFrom {oneOf? : Option (List SchemaNode)}
    (h : readAlternatives members (keywordsOf members) path = .ok oneOf?) :
    ∀ nodes, oneOf? = some nodes →
      ∃ items, Entries.get? "oneOf" members = some (.array items) ∧
        List.Forall₂ ReadFrom items nodes := by
  rw [readAlternatives, keywordsOf] at h
  rintro nodes rfl
  cases hvalue : Entries.get? "oneOf" members with
  | none =>
    rw [hvalue] at h
    cases h
  | some j =>
    rw [hvalue] at h
    cases j <;> simp only [Option.bind_some, alternativesReading?] at h
    case array items =>
      obtain ⟨nodes', hnodes, h⟩ := exists_of_map_eq_ok h
      cases h
      exact ⟨items, rfl, forall₂_readFrom_of_readItemsFrom hnodes⟩
    all_goals cases h

theorem additional_readFrom {mapValues? : Option (MapValues SchemaNode)}
    (h : readAdditional (keywordsOf members) path = .ok mapValues?) :
    ∀ values, mapValues? = some values →
      ∃ j, Entries.get? "additionalProperties" members = some j ∧
        values.keyword = .additional ∧ ReadFrom j values.schema := by
  rw [readAdditional, keywordsOf] at h
  rintro values rfl
  cases hread : (Entries.get? "additionalProperties" members).bind reading? with
  | none =>
    simp only [hread] at h
    cases h
  | some read =>
    simp only [hread] at h
    obtain ⟨schema, hschema, h⟩ := exists_of_map_eq_ok h
    cases h
    obtain ⟨j, hj, hreading⟩ := Option.bind_eq_some_iff.mp hread
    exact ⟨j, hj, rfl, readFrom_of_reading? hreading hschema⟩

theorem mapValues_readFrom {mapValues? : Option (MapValues SchemaNode)}
    (h : readMapValues members (keywordsOf members) path = .ok mapValues?) :
    ∀ values, mapValues? = some values →
      (∃ text j, Entries.get? "patternProperties" members = some (.object [(text, j)]) ∧
        values.keyword = .pattern text ∧ ReadFrom j values.schema) ∨
      ∃ j, Entries.get? "additionalProperties" members = some j ∧
        values.keyword = .additional ∧ ReadFrom j values.schema := by
  rintro values rfl
  rw [readMapValues] at h
  cases hvalue : Entries.get? "patternProperties" members with
  | none =>
    rw [hvalue] at h
    exact .inr (additional_readFrom h values rfl)
  | some j =>
    have hpatterns : (keywordsOf members).patterns? = entriesReading? j := by
      rw [keywordsOf, hvalue, Option.bind_some]
    rw [hvalue, hpatterns] at h
    cases j <;> simp only [entriesReading?] at h
    case object patterns =>
      split_ifs at h with hlength
      · cases h
      obtain ⟨entries, hentries, hvalues⟩ := exists_of_bind_eq_ok h
      have hread := entriesReadFrom_of_readEntries hentries
      cases hread with
      | nil => exact .inr (additional_readFrom hvalues values rfl)
      | @cons pattern entry rest _ hentry hrest =>
        obtain rfl : rest = [] := List.length_eq_zero_iff.mp (by
          rw [List.length_cons] at hlength
          omega)
        cases hvalues
        exact .inl ⟨pattern.1, pattern.2, rfl, congrArg _ hentry.1.symm, hentry.2⟩
    all_goals cases h

theorem shape_readFrom {shape : ObjectSchema}
    (h : readObject members (keywordsOf members) path = .ok shape) :
    ShapeReadFrom members shape := by
  rw [readObject] at h
  obtain ⟨properties, hproperties, h⟩ := exists_of_bind_eq_ok h
  obtain ⟨required, -, h⟩ := exists_of_bind_eq_ok h
  obtain ⟨oneOf?, honeOf, h⟩ := exists_of_bind_eq_ok h
  obtain ⟨mapValues?, hmapValues, h⟩ := exists_of_bind_eq_ok h
  cases h
  exact ⟨properties_readFrom hproperties, alternatives_readFrom honeOf,
    mapValues_readFrom hmapValues⟩

theorem items_readFrom {items : SchemaNode}
    (h : readItems members (keywordsOf members) path = .ok items) :
    ∃ j, Entries.get? "items" members = some j ∧ ReadFrom j items := by
  rw [readItems] at h
  cases hvalue : Entries.get? "items" members with
  | none =>
    rw [hvalue] at h
    cases h
  | some j =>
    have hread : (keywordsOf members).items? = reading? j := by
      rw [keywordsOf, hvalue, Option.bind_some]
    rw [hvalue, hread] at h
    cases j <;> simp only [reading?] at h
    case object inner => exact ⟨_, rfl, readFrom_of_reading? (by rw [reading?]) h⟩
    all_goals cases h

theorem enumeration_of_readInfo {info : SchemaInfo} (h : readInfo members path = .ok info) :
    ∀ values, info.enumeration? = some values →
      Entries.get? "enum" members = some (.array values) := by
  rintro values hvalues
  rw [readInfo] at h
  cases hvalue : Entries.get? "enum" members with
  | none =>
    rw [hvalue] at h
    obtain ⟨_, hnone, h⟩ := exists_of_bind_eq_ok h
    cases hnone
    iterate 4 obtain ⟨_, -, h⟩ := exists_of_bind_eq_ok h
    cases h
    cases hvalues
  | some j =>
    rw [hvalue] at h
    cases j
    case array items =>
      obtain ⟨_, hsome, h⟩ := exists_of_bind_eq_ok h
      cases hsome
      iterate 4 obtain ⟨_, -, h⟩ := exists_of_bind_eq_ok h
      cases h
      cases hvalues
      rfl
    all_goals cases h

/-- What the children of a node were read from. -/
def KindReadFrom (members : List (String × Json)) : SchemaKind SchemaNode → Prop
  | .object shape => ShapeReadFrom members shape
  | .array items => ∃ j, Entries.get? "items" members = some j ∧ ReadFrom j items
  | _ => True

theorem kind_readFrom {kind : SchemaKind SchemaNode}
    (h : readKind members (keywordsOf members) path = .ok kind) : KindReadFrom members kind := by
  rw [readKind] at h
  obtain ⟨declared, -, h⟩ := exists_of_bind_eq_ok h
  split_ifs at h
  · cases h
  split at h
  case h_6 =>
    obtain ⟨shape, hshape, h⟩ := exists_of_bind_eq_ok h
    cases h
    exact shape_readFrom hshape
  case h_7 =>
    obtain ⟨items, hitems, h⟩ := exists_of_bind_eq_ok h
    cases h
    exact items_readFrom hitems
  all_goals
    cases h
    try exact trivial

/-- What a node was read from: an object with the declared values under `enum` and the children under
their keywords. -/
theorem ReadFrom.cases {j : Json} {info : SchemaInfo} {kind : SchemaKind SchemaNode}
    (h : ReadFrom j (mk info kind)) :
    ∃ members, j = .object members ∧ KindReadFrom members kind ∧
      ∀ values, info.enumeration? = some values →
        Entries.get? "enum" members = some (.array values) := by
  obtain ⟨path, h⟩ := h
  cases j
  case object members =>
    rw [ofJson_object, ofMembers] at h
    obtain ⟨kind, hkind, h⟩ := exists_of_bind_eq_ok h
    obtain ⟨info, hinfo, h⟩ := exists_of_bind_eq_ok h
    cases h
    exact ⟨members, rfl, kind_readFrom hkind, enumeration_of_readInfo hinfo⟩
  all_goals cases h

end SchemaNode

end ThingTypes
