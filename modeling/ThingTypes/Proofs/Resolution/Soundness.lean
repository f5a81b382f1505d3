import ThingTypes.Proofs.Resolution.Matching
import ThingTypes.Proofs.TypeGraph.Signatures

/-
  What the names of a catalog stand for while it is filled. `Sound` says that a class which is
  complete is right for the schema of its fingerprint, that an alias has a target of its own
  package, and that a top-level enum has the values of its fingerprint. A name that holds what is
  asked for can therefore be taken as it is.

  A class has its name before it has members. Such a class is underway, and it is left out until it
  is complete. No schema inside it can ask for it, as it would have to weigh less than itself
  (`Ready`).
-/

namespace ThingTypes

/-! ## Types of a package -/

theorem inPackage_inj {package a b : String} (h : inPackage package a = inPackage package b) :
    a = b := by
  unfold inPackage at h
  split at h
  · exact h
  · exact (String.append_right_inj _).mp h

theorem TypeName.IsTopLevel.eq_of_display {package : String} {a b : TypeName}
    (ha : a.IsTopLevel package) (hb : b.IsTopLevel package) (h : a.display = b.display) :
    a = b := by
  obtain ⟨package', name, owner?⟩ := a
  obtain ⟨package'', name', owner?'⟩ := b
  obtain ⟨rfl, rfl⟩ := ha
  obtain ⟨rfl, rfl⟩ := hb
  rw [show name = name' from inPackage_inj h]

namespace TypeRef

/-- The generated type that a reference mentions stands at the top level of the package. -/
def Within (package : String) (type : TypeRef) : Prop :=
  ∀ name ∈ type.referencedName?, name.IsTopLevel package

theorem within_classType {package : String} {name : TypeName} :
    (classType name).Within package ↔ name.IsTopLevel package := by
  simp [Within, referencedName?]

theorem within_enumType {package : String} {name : TypeName} :
    (enumType name).Within package ↔ name.IsTopLevel package := by
  simp [Within, referencedName?]

/-- In one package, references of one signature are the same. -/
theorem signature_inj {package : String} {a b : TypeRef} (ha : a.Within package)
    (hb : b.Within package) (h : a.signature = b.signature) : a = b :=
  eq_of_signature_eq (P := (·.IsTopLevel package)) (fun hx hy => hx.eq_of_display hy) ha hb h

end TypeRef

namespace Catalog

variable {digest : Digest} {c c' : Catalog} {underway : List TypeName} {name type : TypeName}

/-! ## Declarations of a catalog -/

theorem class?_declarations {d : ClassDecl} :
    (c.declarations underway).class? name = some d ↔
      c.classes.class? name.key = some d ∧ d.typeName = name ∧ name ∉ underway := by
  simp [declarations, Option.filter_eq_some_iff]

theorem alias?_declarations {a : AliasDecl} :
    (c.declarations underway).alias? name = some a ↔
      c.classes.alias? name.key = some a ∧ a.typeName = name := by
  simp [declarations, Option.filter_eq_some_iff]

theorem enum?_declarations {e : EnumDecl} :
    (c.declarations underway).enum? name = some e ↔
      c.enums.separate? name.key = some e ∧ e.typeName = name := by
  simp [declarations, Option.filter_eq_some_iff]

theorem Keeps.extends (h : c.Keeps c') :
    (c.declarations underway).Extends (c'.declarations underway) where
  class?_eq hd := by
    obtain ⟨hd, hname, hunderway⟩ := class?_declarations.mp hd
    obtain ⟨d', hd', hgrow⟩ := h.classes hd
    exact ⟨d', class?_declarations.mpr ⟨hd', hgrow.typeName_eq.trans hname, hunderway⟩, hgrow⟩
  alias?_eq ha := by
    obtain ⟨ha, hname⟩ := alias?_declarations.mp ha
    exact alias?_declarations.mpr ⟨h.aliases ha, hname⟩
  enum?_eq he := by
    obtain ⟨he, hname⟩ := enum?_declarations.mp he
    exact enum?_declarations.mpr ⟨h.enums he, hname⟩

/-- A class that is underway from the start changes no declaration. -/
theorem extends_addClass (hc : c.Consistent) {d : ClassDecl} (hfree : c.IsFree d.key) :
    (c.declarations underway).Extends
      ((c.addClass d).declarations (d.typeName :: underway)) where
  class?_eq {name d'} hd' := by
    obtain ⟨hd', hname, hunderway⟩ := class?_declarations.mp hd'
    have hne : name.key ≠ d.key := by
      intro hkey
      rw [hkey, hc.class?_of_free hfree.1] at hd'
      cases hd'
    refine ⟨d', class?_declarations.mpr ⟨?_, hname, ?_⟩, .refl d'⟩
    · rw [class?_addClass, if_neg hne, hd']
    · rw [List.mem_cons, not_or]
      refine ⟨?_, hunderway⟩
      rintro rfl
      exact hne rfl
  alias?_eq ha := ha
  enum?_eq he := he

/-- A class that becomes complete is there besides the others. -/
theorem extends_complete {f : ClassDecl → ClassDecl} {d : ClassDecl}
    (hd : c.classes.class? type.key = some d) (hname : d.typeName = type) :
    (c.declarations (type :: underway)).Extends
      ((c.modifyClass type.key f).declarations underway) where
  class?_eq {name d'} hd' := by
    obtain ⟨hd', hname', hunderway⟩ := class?_declarations.mp hd'
    rw [List.mem_cons, not_or] at hunderway
    have hne : name.key ≠ type.key := by
      intro hkey
      rw [hkey, hd, Option.some.injEq] at hd'
      exact hunderway.1 (by rw [← hname', ← hd', hname])
    refine ⟨d', class?_declarations.mpr ⟨?_, hname', hunderway.2⟩, .refl d'⟩
    rw [class?_modifyClass, hd', Option.map_some, if_neg hne]
  alias?_eq ha := ha
  enum?_eq he := he

/-! ## The invariant -/

/-- What is declared is what its fingerprint says, the classes underway left out. -/
structure Sound (digest : Digest) (underway : List TypeName) (c : Catalog) : Prop where
  class_matches : ∀ {k d}, c.classes.class? k = some d → d.typeName ∉ underway →
    ∃ node : SchemaNode, d.fingerprint = node.fingerprint digest ∧
      (c.declarations underway).Matches node (.classType d.typeName)
  alias_within : ∀ {k a}, c.classes.alias? k = some a → a.target.Within a.package
  enum_values : ∀ {k e}, c.enums.separate? k = some e → ∃ name info content package values,
    e = Resolution.enumDecl name info content package none ∧ content.IsOf digest values
  enum_named : ∀ {k f}, c.enums.table.get? k = some f →
    ∃ e, c.enums.separate? k = some e ∧ e.fingerprint = f

theorem sound_empty (digest : Digest) : Sound digest [] {} where
  class_matches h := by cases h
  alias_within h := by cases h
  enum_values h := by cases h
  enum_named h := by cases h

namespace Sound

/-- A class stays right when it grows. -/
theorem class_matches_of_growsTo (hs : Sound digest underway c) {underway' : List TypeName}
    (hextends : (c.declarations underway).Extends (c'.declarations underway')) {k : TypeKey}
    {d d' : ClassDecl} (hd : c.classes.class? k = some d) (hunderway : d.typeName ∉ underway)
    (hgrow : d.GrowsTo d') : ∃ node : SchemaNode, d'.fingerprint = node.fingerprint digest ∧
      (c'.declarations underway').Matches node (.classType d'.typeName) := by
  obtain ⟨node, hnode, hmatches⟩ := hs.class_matches hd hunderway
  obtain ⟨_, _, rfl, _⟩ := hgrow
  exact ⟨node, hnode, hmatches.transfer hextends (.refl node)⟩

theorem addClass (hs : Sound digest underway c) (hc : c.Consistent) {d : ClassDecl}
    (hfree : c.IsFree d.key) : Sound digest (d.typeName :: underway) (c.addClass d) where
  class_matches {k d'} hd' hunderway := by
    rw [class?_addClass] at hd'
    split at hd'
    · cases hd'
      exact absurd List.mem_cons_self hunderway
    · exact hs.class_matches_of_growsTo (extends_addClass hc hfree) hd'
        (fun h => hunderway (List.mem_cons_of_mem _ h)) (.refl d')
  alias_within := hs.alias_within
  enum_values := hs.enum_values
  enum_named := hs.enum_named

/-- A class that has got the members of its schema is complete. -/
theorem complete (hs : Sound digest (type :: underway) c) (hc : c.Consistent)
    {f : ClassDecl → ClassDecl} (hf : ClassDecl.SetsMembers f) {node : SchemaNode} {d : ClassDecl}
    (hd : c.classes.class? type.key = some d) (hname : d.typeName = type)
    (hnode : d.fingerprint = node.fingerprint digest)
    (hmatches : ((c.modifyClass type.key f).declarations underway).Matches node (.classType type)) :
    Sound digest underway (c.modifyClass type.key f) where
  class_matches {k d'} hd' hunderway := by
    rw [class?_modifyClass, Option.map_eq_some_iff] at hd'
    obtain ⟨old, hold, rfl⟩ := hd'
    by_cases hk : k = type.key
    · rw [hk, hd, Option.some.injEq] at hold
      subst hold
      rw [if_pos hk, hf.typeName_eq, hf.fingerprint_eq, hname]
      exact ⟨node, hnode, hmatches⟩
    · rw [if_neg hk] at hunderway ⊢
      refine hs.class_matches_of_growsTo (extends_complete hd hname) hold ?_ (.refl old)
      rw [List.mem_cons, not_or]
      refine ⟨?_, hunderway⟩
      rintro rfl
      exact hk (hc.class_held hold).1.symm
  alias_within := hs.alias_within
  enum_values := hs.enum_values
  enum_named := hs.enum_named

theorem addSealedParent (hs : Sound digest underway c) (key : TypeKey) (parent : TypeName) :
    Sound digest underway (c.modifyClass key (·.addSealedParent parent)) where
  class_matches {k d'} hd' hunderway := by
    rw [class?_modifyClass, Option.map_eq_some_iff] at hd'
    obtain ⟨d, hd, rfl⟩ := hd'
    have hgrow : d.GrowsTo (if k = key then d.addSealedParent parent else d) := by
      split
      · exact d.growsTo_addSealedParent parent
      · exact .refl d
    have hkeeps : c.Keeps (c.modifyClass key (·.addSealedParent parent)) :=
      .modifyClass fun d _ => d.growsTo_addSealedParent parent
    rw [hgrow.typeName_eq] at hunderway
    exact hs.class_matches_of_growsTo hkeeps.extends hd hunderway hgrow
  alias_within := hs.alias_within
  enum_values := hs.enum_values
  enum_named := hs.enum_named

theorem addAlias (hs : Sound digest underway c) {a : AliasDecl} (hkeeps : c.Keeps (c.addAlias a))
    (hwithin : a.target.Within a.package) : Sound digest underway (c.addAlias a) where
  class_matches {_ d} hd hunderway :=
    hs.class_matches_of_growsTo hkeeps.extends hd hunderway (.refl d)
  alias_within ha := by
    rw [alias?_addAlias] at ha
    split at ha
    · cases ha
      exact hwithin
    · exact hs.alias_within ha
  enum_values := hs.enum_values
  enum_named := hs.enum_named

theorem addEnum (hs : Sound digest underway c) {name : String} {info : SchemaInfo}
    {content : EnumContent} {package : String} {values : List Json}
    (hkeeps : c.Keeps (c.addEnum (Resolution.enumDecl name info content package none)))
    (hcontent : content.IsOf digest values) :
    Sound digest underway (c.addEnum (Resolution.enumDecl name info content package none)) where
  class_matches {_ d} hd hunderway :=
    hs.class_matches_of_growsTo hkeeps.extends hd hunderway (.refl d)
  alias_within := hs.alias_within
  enum_values he := by
    rw [separate?_addEnum] at he
    split at he
    · cases he
      exact ⟨name, info, content, package, values, rfl, hcontent⟩
    · exact hs.enum_values he
  enum_named hf := by
    rw [enumTable_addEnum] at hf
    rw [separate?_addEnum]
    split at hf
    · rename_i hk
      cases hf
      exact ⟨_, if_pos hk, rfl⟩
    · rename_i hk
      rw [if_neg hk]
      exact hs.enum_named hf

end Sound

/-! ## Names that are taken as they are -/

/-- A catalog in which schemas can be resolved that weigh less than the bound. The classes underway
stand for schemas that do not. -/
structure Ready (digest : Digest) (bound : ℕ) (underway : List TypeName) (c : Catalog) : Prop
    extends c.WellFormed digest, Sound digest underway c where
  heavy : ∀ type ∈ underway, ∃ d, c.classes.class? type.key = some d ∧
    ∃ node : SchemaNode, d.fingerprint = node.fingerprint digest ∧ bound ≤ node.weight

namespace Ready

variable {bound : ℕ}

theorem of_sound (hc : c.WellFormed digest) (hs : Sound digest [] c) : Ready digest bound [] c :=
  ⟨hc, hs, nofun⟩

theorem after (h : Ready digest bound underway c) {owner? sealed? : Option TypeName}
    (hgrows : Grows digest owner? sealed? c c') (hs : Sound digest underway c') :
    Ready digest bound underway c' where
  toWellFormed := hgrows.wellFormed h.toWellFormed
  toSound := hs
  heavy type hmem := by
    obtain ⟨d, hd, node, hnode, hle⟩ := h.heavy type hmem
    obtain ⟨d', hd', _, _, rfl, _⟩ := (hgrows.keeps h.toConsistent).classes hd
    exact ⟨_, hd', node, hnode, hle⟩

theorem not_mem_of_free (h : Ready digest bound underway c) (hfree : c.IsFree type.key) :
    type ∉ underway := by
  intro hmem
  obtain ⟨d, hd, _⟩ := h.heavy type hmem
  rw [h.class?_of_free hfree.1] at hd
  cases hd

/-- The children of a schema weigh less than the schema itself, so its class may be underway. -/
theorem addClass (h : Ready digest bound underway c) {node : SchemaNode}
    (hlt : node.weight < bound) {d : ClassDecl} (hfree : c.IsFree d.key)
    (hc : (c.addClass d).WellFormed digest) (hnode : d.fingerprint = node.fingerprint digest) :
    Ready digest node.weight (d.typeName :: underway) (c.addClass d) where
  toWellFormed := hc
  toSound := h.toSound.addClass h.toConsistent hfree
  heavy type hmem := by
    rcases List.mem_cons.mp hmem with rfl | hmem
    · exact ⟨d, class?_addClass_self c d, node, hnode, le_refl _⟩
    · obtain ⟨d', hd', node', hnode', hle⟩ := h.heavy type hmem
      have hne : type.key ≠ d.key := by
        intro hkey
        rw [hkey, h.class?_of_free hfree.1] at hd'
        cases hd'
      exact ⟨d', by rw [class?_addClass, if_neg hne, hd'], node', hnode', hlt.le.trans hle⟩

variable (h : Ready digest bound underway c) (hdigest : Function.Injective digest)
include h hdigest

/-- A class of the same fingerprint is complete. -/
theorem matches_of_held {node : SchemaNode} (hlt : node.weight < bound) {package : String}
    (htop : type.IsTopLevel package)
    (hheld : c.classes.table.get? type.key = some (node.fingerprint digest)) :
    (c.declarations underway).Matches node (.classType type) := by
  obtain ⟨d, hd, hfingerprint⟩ := h.exists_class hdigest hheld
  have hname := h.class_named htop hd
  -- Schemas of one fingerprint weigh the same, and what is underway weighs more.
  have hunderway : type ∉ underway := by
    intro hmem
    obtain ⟨d', hd', node', hnode', hle⟩ := h.heavy type hmem
    rw [hd, Option.some.injEq] at hd'
    subst hd'
    rw [hfingerprint, SchemaNode.fingerprint_eq_iff hdigest] at hnode'
    rw [← hnode'.weight_eq] at hle
    omega
  obtain ⟨node', hnode', hmatches⟩ := h.class_matches hd (hname.symm ▸ hunderway)
  rw [hname] at hmatches
  refine hmatches.transfer (.refl _) ?_
  rw [← SchemaNode.fingerprint_eq_iff hdigest, ← hnode', hfingerprint]

theorem hasAlias_of_held {target : TypeRef} {package : String} (htop : type.IsTopLevel package)
    (htarget : target.Within package)
    (hheld : c.classes.table.get? type.key =
      some (.ofMembers digest (Resolution.aliasMembers target))) :
    (c.declarations underway).HasAlias (.aliasType type) (· = target) := by
  obtain ⟨a, ha, hsignature⟩ := h.exists_alias hdigest hheld
  have hname := h.alias_named htop ha
  refine ⟨type, a, rfl, alias?_declarations.mpr ⟨ha, hname⟩, ?_⟩
  have hwithin := h.alias_within ha
  have hpackage : a.package = package := (congrArg TypeName.package hname).trans htop.1
  rw [hpackage] at hwithin
  exact TypeRef.signature_inj hwithin htarget hsignature

theorem hasEnum_of_held {content : EnumContent} {values : List Json}
    (hcontent : content.IsOf digest values) {package found : String}
    (hheld : c.enums.table.get? ⟨package, found⟩ = some content.fingerprint) :
    (c.declarations underway).HasEnum content.backing values
      (.enumType { package, name := found }) := by
  obtain ⟨e, he, hfingerprint⟩ := h.enum_named hheld
  have hkey := (h.enum_held he).1
  obtain ⟨name, info, content', package', values', rfl, hcontent'⟩ := h.enum_values he
  obtain ⟨hbacking, hvalues⟩ := hcontent'.same_of_fingerprint_eq hdigest hcontent hfingerprint
  obtain ⟨rfl, rfl⟩ := TypeKey.mk.inj hkey
  refine ⟨_, _, rfl, enum?_declarations.mpr ⟨he, rfl⟩, hbacking, ?_⟩
  change content'.constants.map (·.value.sorted) = _
  rw [hcontent'.sorted_constants_eq, EnumContent.map_sorted_presentValues, hvalues,
    ← EnumContent.map_sorted_presentValues]

end Ready

end Catalog

end ThingTypes
