import ThingTypes.Proofs.Json.Parts
import ThingTypes.ThingModel.Reader

/-
  What a Thing Model has from its document. A field of a record is read from a part of the record,
  or has its default. So the title and the schemas of a model, the keys of its properties and
  actions and the texts of its links all stand in the document.
-/

namespace ThingTypes

variable {α : Type}

/-! ## Records -/

namespace Json

variable {j : Json} {names : List String} {fields : List (Option Json)} {i : Nat}
  {read : Json → Option α}

theorem mem_parts_of_record? (h : record? names j = some fields) {part : Json}
    (hpart : some part ∈ fields) : part ∈ j.parts := by
  cases j with
  | object members =>
    cases h
    obtain ⟨name, -, hname⟩ := List.mem_map.mp hpart
    exact List.mem_map.mpr ⟨_, Entries.mem_of_get? hname, rfl⟩
  | array items =>
    rw [record?] at h
    split at h <;> cases h
    rcases List.mem_append.mp hpart with hpart | hpart
    · obtain ⟨item, hitem, hsame⟩ := List.mem_map.mp hpart
      cases hsame
      exact hitem
    · cases (List.mem_replicate.mp hpart).2
  | _ => cases h

/-- A field that must be there is read from a part. -/
theorem field?_eq_some {a : α} (h : field? fields i read = some a) :
    ∃ part, some part ∈ fields ∧ read part = some a := by
  unfold field? at h
  split at h
  · rename_i part hpart
    exact ⟨part, List.mem_of_getElem? hpart, h⟩
  · cases h

/-- What is read in a field is the default, or comes from a part that is there. -/
theorem fieldD?_eq_some {default a : α} (h : fieldD? fields i default read = some a) :
    a = default ∨ ∃ part, some part ∈ fields ∧ read part = some a := by
  unfold fieldD? at h
  split at h
  · rename_i part hpart
    exact .inr ⟨part, List.mem_of_getElem? hpart, h⟩
  · cases h
    exact .inl rfl

theorem nullable?_eq_some {value : Option α} (h : nullable? read j = some value) :
    ∀ a ∈ value, read j = some a := by
  unfold nullable? at h
  split at h
  · cases h
    exact nofun
  · obtain ⟨a, ha, rfl⟩ := Option.map_eq_some_iff.mp h
    rintro _ ⟨⟩
    exact ha

/-- A value that may be left out or be `null` is read from a part, if there is one. -/
theorem read_of_fieldD?_nullable? {value : Option α}
    (h : fieldD? fields i none (nullable? read) = some value) :
    ∀ a ∈ value, ∃ part, some part ∈ fields ∧ read part = some a := by
  rcases fieldD?_eq_some h with rfl | ⟨part, hpart, hread⟩
  · exact nofun
  · exact fun a ha => ⟨part, hpart, nullable?_eq_some hread a ha⟩

theorem listOf?_eq_some {l : List α} (h : listOf? read j = some l) :
    ∀ a ∈ l, ∃ part ∈ j.parts, read part = some a := by
  obtain ⟨items, hitems, h⟩ := Option.bind_eq_some_iff.mp h
  cases j <;> cases hitems
  exact fun a ha => (mem_mapM_iff h).mp ha

end Json

theorem OrderedMap.mem_insertAll {κ : Type} [DecidableEq κ] {entries : List (κ × α)} :
    ∀ {map : OrderedMap κ α} {e : κ × α}, e ∈ (map.insertAll entries).entries →
      e ∈ map.entries ∨ e ∈ entries := by
  induction entries with
  | nil => exact fun h => .inl h
  | cons first rest ih =>
    intro map e h
    rcases ih h with h | h
    · exact (Entries.mem_of_mem_insert h).elim (fun h => .inr (h ▸ List.mem_cons_self)) .inl
    · exact .inr (List.mem_cons_of_mem _ h)

theorem Json.mapOf?_eq_some {j : Json} {read : Json → Option α} {map : OrderedMap String α}
    (h : mapOf? read j = some map) {e : String × α} (he : e ∈ map.entries) :
    e.1 ∈ j.keys ∧ ∃ part ∈ j.parts, read part = some e.2 := by
  obtain ⟨members, hmembers, h⟩ := Option.bind_eq_some_iff.mp h
  obtain ⟨entries, hentries, rfl⟩ := Option.map_eq_some_iff.mp h
  cases j <;> cases hmembers
  rcases OrderedMap.mem_insertAll he with hnone | he
  · cases hnone
  · obtain ⟨member, hmember, hread⟩ := (mem_mapM_iff hentries).mp he
    obtain ⟨a, ha, rfl⟩ := Option.map_eq_some_iff.mp hread
    exact ⟨List.mem_map_of_mem hmember, member.2, List.mem_map_of_mem hmember, ha⟩

theorem Json.eq_string_of_string? {j : Json} {s : String} (h : j.string? = some s) :
    j = string s := by
  cases j <;> cases h
  rfl

/-! ## Models -/

/-- The texts of a link stand in the value that it is read from. -/
theorem Link.parts_of_json {j : Json} {link : Link} (h : ofJson? j = some link) :
    Json.string link.href ∈ j.parts ∧
      ∀ name ∈ link.instanceName?, Json.string name ∈ j.parts := by
  simp only [ofJson?, Option.bind_eq_bind, Option.bind_eq_some_iff, Option.pure_def] at h
  obtain ⟨fields, hfields, _, -, href, hhref, name?, hname, _, -, h⟩ := h
  cases h
  have hpart {s : String} (hread : ∃ part, some part ∈ fields ∧ part.string? = some s) :
      Json.string s ∈ j.parts := by
    obtain ⟨part, hmem, hs⟩ := hread
    rw [← Json.eq_string_of_string? hs]
    exact Json.mem_parts_of_record? hfields hmem
  exact ⟨hpart (Json.field?_eq_some hhref),
    fun name hmem => hpart (Json.read_of_fieldD?_nullable? hname name hmem)⟩

theorem ActionAffordance.mem_parts_of_json {j : Json} {action : ActionAffordance}
    (h : ofJson? j = some action) {schema : Json}
    (hschema : schema ∈ action.input? ∨ schema ∈ action.output?) : schema ∈ j.parts := by
  simp only [ofJson?, Option.bind_eq_bind, Option.bind_eq_some_iff, Option.pure_def] at h
  obtain ⟨fields, hfields, title?, -, description?, -, input?, hinput, output?, houtput, h⟩ := h
  cases h
  have hpart {i : Nat} {value : Option Json}
      (hvalue : Json.fieldD? fields i none (Json.nullable? some) = some value)
      (hmem : schema ∈ value) : schema ∈ j.parts := by
    obtain ⟨part, hpart, hsome⟩ := Json.read_of_fieldD?_nullable? hvalue schema hmem
    rw [← Option.some.inj hsome]
    exact Json.mem_parts_of_record? hfields hpart
  exact hschema.elim (hpart hinput) (hpart houtput)

namespace ThingModel

/-- Everything in the model stands in the document, whose location is the origin of the links. -/
structure StandsIn (document : Json) (location : String) (model : ThingModel) : Prop where
  title : ∀ title ∈ model.title?, Json.string title ∈ document.parts
  properties : ∀ e ∈ model.properties.entries,
    ∃ part ∈ document.parts, e.1 ∈ part.keys ∧ e.2 ∈ part.parts
  actions : ∀ e ∈ model.actions.entries, ∃ part ∈ document.parts,
    e.1 ∈ part.keys ∧ ∃ j ∈ part.parts, ActionAffordance.ofJson? j = some e.2
  links : ∀ link ∈ model.links, link.origin? = some location ∧
    ∃ part ∈ document.parts, ∃ j ∈ part.parts, Json.string link.href ∈ j.parts ∧
      ∀ name ∈ link.instanceName?, Json.string name ∈ j.parts

theorem standsIn_of_document {document : Json} {location : String} {model : ThingModel}
    (h : ofDocument document location = .ok model) : model.StandsIn document location := by
  unfold ofDocument at h
  split at h
  case h_2 => cases h
  rename_i read hread
  cases h
  simp only [ofJson?, Option.bind_eq_bind, Option.bind_eq_some_iff, Option.pure_def] at hread
  obtain ⟨fields, hfields, title?, htitle, description?, -, properties, hproperties, actions,
    hactions, links, hlinks, optional, -, hread⟩ := hread
  cases hread
  have hmem {part : Json} (hpart : some part ∈ fields) : part ∈ document.parts :=
    Json.mem_parts_of_record? hfields hpart
  constructor
  · intro title htext
    obtain ⟨part, hpart, hs⟩ := Json.read_of_fieldD?_nullable? htitle title htext
    rw [← Json.eq_string_of_string? hs]
    exact hmem hpart
  · intro e he
    rcases Json.fieldD?_eq_some hproperties with rfl | ⟨part, hpart, hread⟩
    · cases he
    · obtain ⟨hkey, schema, hschema, hsame⟩ := Json.mapOf?_eq_some hread he
      cases hsame
      exact ⟨part, hmem hpart, hkey, hschema⟩
  · intro e he
    rcases Json.fieldD?_eq_some hactions with rfl | ⟨part, hpart, hread⟩
    · cases he
    · exact ⟨part, hmem hpart, Json.mapOf?_eq_some hread he⟩
  · intro link hlink
    obtain ⟨read, hread, rfl⟩ := List.mem_map.mp hlink
    rcases Json.fieldD?_eq_some hlinks with rfl | ⟨part, hpart, hlist⟩
    · cases hread
    · obtain ⟨j, hj, hlink⟩ := Json.listOf?_eq_some hlist read hread
      have htexts := Link.parts_of_json hlink
      exact ⟨rfl, part, hmem hpart, j, hj, htexts⟩

end ThingModel

end ThingTypes
