import ThingTypes.Proofs.Json.Texts
import ThingTypes.Proofs.Schema.Induction
import ThingTypes.Proofs.Schema.Reading

/-
  The texts in a schema that something can be named by: titles, categories and the keys of
  properties. All of them stand in the document that the schema was read from.
-/

namespace ThingTypes.SchemaNode

/-- All titles, categories and property keys in the schema are of a kind. -/
inductive NamedBy (hint : String → Prop) : SchemaNode → Prop where
  | intro {node : SchemaNode} : (∀ title ∈ node.info.title?, hint title) →
    (∀ category ∈ node.info.category?, hint category) →
    (∀ shape ∈ node.object?, ∀ property ∈ shape.properties, hint property.1) →
    (∀ child ∈ node.children, NamedBy hint child) → NamedBy hint node

variable {hint : String → Prop} {node : SchemaNode}

namespace NamedBy

theorem title : node.NamedBy hint → ∀ title ∈ node.info.title?, hint title
  | intro h _ _ _ => h

theorem category : node.NamedBy hint → ∀ category ∈ node.info.category?, hint category
  | intro _ h _ _ => h

theorem property : node.NamedBy hint →
    ∀ shape ∈ node.object?, ∀ property ∈ shape.properties, hint property.1
  | intro _ _ h _ => h

theorem child : node.NamedBy hint → ∀ child ∈ node.children, child.NamedBy hint
  | intro _ _ _ h => h

/-- Properties with keys and schemas of the kind make an object of the kind. -/
theorem ofProperties {properties : List (String × SchemaNode)} {required : List String}
    {title? : Option String} (htitle : ∀ title ∈ title?, hint title)
    (hproperties : ∀ property ∈ properties, hint property.1 ∧ property.2.NamedBy hint) :
    (SchemaNode.ofProperties properties required title?).NamedBy hint := by
  refine intro htitle nofun ?_ fun child hchild => ?_
  · rintro _ ⟨⟩ property hmem
    exact (hproperties property hmem).1
  · obtain ⟨property, hmem, rfl⟩ | ⟨_, hnone, -⟩ | ⟨_, hnone, -⟩ :=
      mem_children_object.mp hchild
    · exact (hproperties property hmem).2
    · cases hnone
    · cases hnone

end NamedBy

/-! ## Reading -/

theorem textField_eq_ok {members : List (String × Json)} {key path : String}
    {text? : Option String} (h : textField members key path = .ok text?) :
    ∀ text ∈ text?, Entries.get? key members = some (.string text) := by
  unfold textField at h
  split at h <;> cases h
  · exact nofun
  · exact nofun
  · rename_i hfound
    rintro _ ⟨⟩
    exact hfound

theorem texts_of_readInfo {members : List (String × Json)} {path : String} {info : SchemaInfo}
    (h : readInfo members path = .ok info) :
    (∀ title ∈ info.title?, Entries.get? "title" members = some (.string title)) ∧
      ∀ category ∈ info.category?, Entries.get? categoryKey members = some (.string category) := by
  rw [readInfo] at h
  split at h
  all_goals
    obtain ⟨_, hdeclared, h⟩ := exists_of_bind_eq_ok h
    cases hdeclared
  all_goals
    obtain ⟨title?, htitle, h⟩ := exists_of_bind_eq_ok h
    obtain ⟨_, -, h⟩ := exists_of_bind_eq_ok h
    obtain ⟨_, -, h⟩ := exists_of_bind_eq_ok h
    obtain ⟨category?, hcategory, h⟩ := exists_of_bind_eq_ok h
    cases h
    exact ⟨textField_eq_ok htitle, textField_eq_ok hcategory⟩

/-- The title and the category of a node stand in the document that it was read from. -/
theorem ReadFrom.texts {j : Json} (h : ReadFrom j node) (hj : j.AllTexts hint) :
    (∀ title ∈ node.info.title?, hint title) ∧
      ∀ category ∈ node.info.category?, hint category := by
  obtain ⟨path, h⟩ := h
  cases j
  case object members =>
    rw [ofJson_object, ofMembers] at h
    obtain ⟨kind, -, h⟩ := exists_of_bind_eq_ok h
    obtain ⟨info, hinfo, h⟩ := exists_of_bind_eq_ok h
    cases h
    have hmember {key text : String} (hfound : Entries.get? key members = some (.string text)) :
        hint text := (hj.ofMember (Entries.mem_of_get? hfound)).2.ofString
    obtain ⟨htitle, hcategory⟩ := texts_of_readInfo hinfo
    exact ⟨fun title hmem => hmember (htitle title hmem),
      fun category hmem => hmember (hcategory category hmem)⟩
  all_goals cases h

/-- What is named by is found in the document that the schema was read from. -/
theorem ReadFrom.namedBy {node : SchemaNode} :
    ∀ {j : Json}, ReadFrom j node → j.AllTexts hint → node.NamedBy hint := by
  have hunder {members : List (String × Json)} {key : String} {j : Json}
      (hj : (Json.object members).AllTexts hint) (hfound : Entries.get? key members = some j) :
      j.AllTexts hint := (hj.ofMember (Entries.mem_of_get? hfound)).2
  induction node using byChildren with
  | scalar info kind =>
    intro j h hj
    obtain ⟨htitle, hcategory⟩ := h.texts hj
    exact .intro htitle hcategory nofun nofun
  | null info =>
    intro j h hj
    obtain ⟨htitle, hcategory⟩ := h.texts hj
    exact .intro htitle hcategory nofun nofun
  | array info items ih =>
    intro j h hj
    obtain ⟨htitle, hcategory⟩ := h.texts hj
    obtain ⟨members, rfl, ⟨inner, hinner, hitems⟩, -⟩ := h.cases
    refine .intro htitle hcategory nofun fun child hchild => ?_
    obtain rfl := mem_children_array.mp hchild
    exact ih hitems (hunder hj hinner)
  | object info shape hproperties halternatives hvalues =>
    intro j h hj
    obtain ⟨htitle, hcategory⟩ := h.texts hj
    obtain ⟨members, rfl, hshape, -⟩ := h.cases
    have hproperty : ∀ property ∈ shape.properties,
        hint property.1 ∧ property.2.NamedBy hint := by
      intro property hmem
      rcases hshape.properties with hnil | ⟨inner, hinner, hentries⟩
      · rw [hnil] at hmem
        cases hmem
      · obtain ⟨m, hm, hkey, hread⟩ := exists_left_of_forall₂ hentries hmem
        obtain ⟨hhint, htexts⟩ := (hunder hj hinner).ofMember hm
        exact ⟨hkey ▸ hhint, hproperties property hmem hread htexts⟩
    refine .intro htitle hcategory ?_ fun child hchild => ?_
    · rintro _ ⟨⟩ property hmem
      exact (hproperty property hmem).1
    · obtain ⟨property, hmem, rfl⟩ | ⟨alternatives, honeOf, hmem⟩ | ⟨values, hmap, rfl⟩ :=
        mem_children_object.mp hchild
      · exact (hproperty property hmem).2
      · obtain ⟨items, hitems, hread⟩ := hshape.oneOf? alternatives honeOf
        obtain ⟨item, hitem, hread⟩ := exists_left_of_forall₂ hread hmem
        exact halternatives alternatives honeOf child hmem hread
          ((hunder hj hitems).ofPart hitem)
      · rcases hshape.mapValues? values hmap with
          ⟨text, inner, hfound, -, hread⟩ | ⟨inner, hfound, -, hread⟩
        · exact hvalues values hmap hread
            ((hunder hj hfound).ofMember (List.mem_singleton_self _)).2
        · exact hvalues values hmap hread (hunder hj hfound)

end ThingTypes.SchemaNode
