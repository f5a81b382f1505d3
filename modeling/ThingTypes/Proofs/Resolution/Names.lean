import ThingTypes.Proofs.Resolution.Growth

/-
  What always holds of the names of a catalog, and what growth keeps. A name stands for one class,
  one alias or one top-level enum (`Catalog.Consistent`). Once there, a declaration stays as it is;
  a class may only get more parents and more nested enums (`Catalog.Keeps`).
-/

namespace ThingTypes

/-- The same class, with more parents and other nested enums perhaps. -/
def ClassDecl.GrowsTo (d d' : ClassDecl) : Prop :=
  ∃ sealedParents nestedEnums, d' = { d with sealedParents, nestedEnums } ∧
    ∀ parent ∈ d.sealedParents, parent ∈ sealedParents

namespace ClassDecl

theorem GrowsTo.refl (d : ClassDecl) : d.GrowsTo d := ⟨_, _, rfl, fun _ h => h⟩

theorem GrowsTo.trans {d d' d'' : ClassDecl} (h : d.GrowsTo d') (h' : d'.GrowsTo d'') :
    d.GrowsTo d'' := by
  obtain ⟨parents, enums, rfl, hparents⟩ := h
  obtain ⟨parents', enums', rfl, hparents'⟩ := h'
  exact ⟨parents', enums', rfl, fun parent hmem => hparents' parent (hparents parent hmem)⟩

theorem GrowsTo.typeName_eq {d d' : ClassDecl} (h : d.GrowsTo d') : d'.typeName = d.typeName := by
  obtain ⟨_, _, rfl, _⟩ := h
  rfl

theorem GrowsTo.key_eq {d d' : ClassDecl} (h : d.GrowsTo d') : d'.key = d.key := by
  obtain ⟨_, _, rfl, _⟩ := h
  rfl

theorem GrowsTo.fingerprint_eq {d d' : ClassDecl} (h : d.GrowsTo d') :
    d'.fingerprint = d.fingerprint := by
  obtain ⟨_, _, rfl, _⟩ := h
  rfl

theorem GrowsTo.kind_eq {d d' : ClassDecl} (h : d.GrowsTo d') : d'.kind = d.kind := by
  obtain ⟨_, _, rfl, _⟩ := h
  rfl

theorem GrowsTo.variants_eq {d d' : ClassDecl} (h : d.GrowsTo d') : d'.variants = d.variants := by
  obtain ⟨_, _, rfl, _⟩ := h
  rfl

theorem mem_sealedParents_addSealedParent (d : ClassDecl) (parent parent' : TypeName) :
    parent' ∈ (d.addSealedParent parent).sealedParents ↔
      parent' ∈ d.sealedParents ∨ parent' = parent := by
  unfold addSealedParent
  split
  · rename_i hmem
    exact ⟨.inl, fun h => h.elim id fun h => h ▸ hmem⟩
  · simp

theorem addSealedParent_eq (d : ClassDecl) (parent : TypeName) :
    ∃ sealedParents, d.addSealedParent parent = { d with sealedParents } ∧
      ∀ parent' ∈ d.sealedParents, parent' ∈ sealedParents := by
  unfold addSealedParent
  split
  · exact ⟨d.sealedParents, rfl, fun _ h => h⟩
  · exact ⟨_, rfl, fun _ h => List.mem_append_left _ h⟩

theorem growsTo_addSealedParent (d : ClassDecl) (parent : TypeName) :
    d.GrowsTo (d.addSealedParent parent) := by
  obtain ⟨sealedParents, h, hparents⟩ := d.addSealedParent_eq parent
  exact ⟨sealedParents, d.nestedEnums, h, hparents⟩

theorem nestedEnum?_nestEnum (d : ClassDecl) (e : EnumDecl) (name : String) :
    (d.nestEnum e).nestedEnum? name = if name = e.name then some e else d.nestedEnum? name := by
  have hplace (l : List EnumDecl) : (nestEnum.place e l).find? (·.name = name) =
      if name = e.name then some e else l.find? (·.name = name) := by
    induction l with
    | nil => by_cases h : name = e.name <;> simp [nestEnum.place, h, eq_comm]
    | cons first rest ih =>
      by_cases hfirst : first.name = e.name
      · by_cases h : name = e.name
        · simp [nestEnum.place, hfirst, h]
        · simp [nestEnum.place, hfirst, h, Ne.symm h]
      · by_cases hname : first.name = name
        · have h : name ≠ e.name := hname ▸ hfirst
          simp [nestEnum.place, hname, h]
        · simp [nestEnum.place, hfirst, hname, ih]
  exact hplace d.nestedEnums

theorem growsTo_nestEnum (d : ClassDecl) (e : EnumDecl) : d.GrowsTo (d.nestEnum e) :=
  ⟨d.sealedParents, _, rfl, fun _ h => h⟩

end ClassDecl

namespace Catalog

/-! ## One namespace -/

/-- Declarations have names: each stands under its own name, a class or an alias holds its name with
its fingerprint, and no two declarations have one name. -/
structure Named (c : Catalog) : Prop where
  class_held : ∀ {k d}, c.classes.class? k = some d →
    d.key = k ∧ c.classes.table.get? k = some d.fingerprint
  alias_held : ∀ {k a}, c.classes.alias? k = some a →
    a.key = k ∧ c.classes.table.get? k = some a.fingerprint
  apart : ∀ {k}, c.classes.class? k ≠ none → c.classes.alias? k = none
  enum_held : ∀ {k e}, c.enums.separate? k = some e →
    e.key = k ∧ e.owner? = none ∧ c.enums.table.get? k ≠ none
  enum_apart : ∀ {k}, c.enums.separate? k ≠ none → c.classes.table.get? k = none

/-- Names and declarations go together: declarations have names, and every name in the table is that
of a class or an alias. -/
structure Consistent (c : Catalog) : Prop extends Named c where
  declared : ∀ {k f}, c.classes.table.get? k = some f →
    c.classes.class? k ≠ none ∨ c.classes.alias? k ≠ none

theorem consistent_empty : Consistent {} where
  class_held h := by cases h
  alias_held h := by cases h
  declared h := by cases h
  apart _ := rfl
  enum_held h := by cases h
  enum_apart _ := rfl

namespace Named

variable {c : Catalog} {key : TypeKey}

theorem class?_of_free (hc : c.Named) (h : c.classes.table.get? key = none) :
    c.classes.class? key = none := by
  cases hd : c.classes.class? key with
  | none => rfl
  | some d => rw [(hc.class_held hd).2] at h; cases h

theorem alias?_of_free (hc : c.Named) (h : c.classes.table.get? key = none) :
    c.classes.alias? key = none := by
  cases ha : c.classes.alias? key with
  | none => rfl
  | some a => rw [(hc.alias_held ha).2] at h; cases h

theorem separate?_of_free (hc : c.Named) (h : c.enums.table.get? key = none) :
    c.enums.separate? key = none := by
  cases he : c.enums.separate? key with
  | none => rfl
  | some e => exact absurd h (hc.enum_held he).2.2

theorem class_named (hc : c.Named) {type : TypeName} {package : String}
    (htop : type.IsTopLevel package) {d : ClassDecl} (hd : c.classes.class? type.key = some d) :
    d.typeName = type := by
  rw [← htop.typeName_eq, ← (hc.class_held hd).1]
  rfl

theorem alias_named (hc : c.Named) {type : TypeName} {package : String}
    (htop : type.IsTopLevel package) {a : AliasDecl} (ha : c.classes.alias? type.key = some a) :
    a.typeName = type := by
  rw [← htop.typeName_eq, ← (hc.alias_held ha).1]
  rfl

theorem addClass (hc : c.Named) {d : ClassDecl} (hfree : c.IsFree d.key) :
    (c.addClass d).Named where
  class_held := by
    intro k d' h
    rw [class?_addClass] at h
    rw [table_addClass]
    split at h
    · rename_i hk
      cases h
      exact ⟨hk.symm, if_pos hk⟩
    · rename_i hk
      rw [if_neg hk]
      exact hc.class_held h
  alias_held := by
    intro k a h
    have hk : k ≠ d.key := by
      rintro rfl
      rw [alias?_addClass, hc.alias?_of_free hfree.1] at h
      cases h
    rw [table_addClass, if_neg hk]
    exact hc.alias_held h
  apart := by
    intro k h
    rw [class?_addClass] at h
    rw [alias?_addClass]
    split at h
    · rename_i hk
      rw [hk]
      exact hc.alias?_of_free hfree.1
    · exact hc.apart h
  enum_held := hc.enum_held
  enum_apart := by
    intro k h
    have hk : k ≠ d.key := fun hk => h (hk ▸ hfree.2)
    rw [table_addClass, if_neg hk]
    exact hc.enum_apart h

theorem addAlias (hc : c.Named) {a : AliasDecl} (hfree : c.IsFree a.key) :
    (c.addAlias a).Named where
  class_held := by
    intro k d h
    have hk : k ≠ a.key := by
      rintro rfl
      rw [class?_addAlias, hc.class?_of_free hfree.1] at h
      cases h
    rw [table_addAlias, if_neg hk]
    exact hc.class_held h
  alias_held := by
    intro k a' h
    rw [alias?_addAlias] at h
    rw [table_addAlias]
    split at h
    · rename_i hk
      cases h
      exact ⟨hk.symm, if_pos hk⟩
    · rename_i hk
      rw [if_neg hk]
      exact hc.alias_held h
  apart := by
    intro k h
    have hk : k ≠ a.key := by
      rintro rfl
      exact h (hc.class?_of_free hfree.1)
    rw [alias?_addAlias, if_neg hk]
    exact hc.apart h
  enum_held := hc.enum_held
  enum_apart := by
    intro k h
    have hk : k ≠ a.key := fun hk => h (hk ▸ hfree.2)
    rw [table_addAlias, if_neg hk]
    exact hc.enum_apart h

theorem modifyClass (hc : c.Named) {f : ClassDecl → ClassDecl}
    (hf : ∀ d, (f d).key = d.key ∧ (f d).fingerprint = d.fingerprint) :
    (c.modifyClass key f).Named where
  class_held := by
    intro k d h
    rw [class?_modifyClass, Option.map_eq_some_iff] at h
    obtain ⟨d', hd', rfl⟩ := h
    rw [table_modifyClass]
    split
    · rw [(hf d').1, (hf d').2]
      exact hc.class_held hd'
    · exact hc.class_held hd'
  alias_held := hc.alias_held
  apart := by
    intro k h
    rw [class?_modifyClass, Ne, Option.map_eq_none_iff] at h
    exact hc.apart h
  enum_held := hc.enum_held
  enum_apart := hc.enum_apart

theorem addEnum (hc : c.Named) {e : EnumDecl} (howner : e.owner? = none)
    (hfree : c.classes.table.get? e.key = none) : (c.addEnum e).Named where
  class_held := hc.class_held
  alias_held := hc.alias_held
  apart := hc.apart
  enum_held := by
    intro k e' h
    rw [separate?_addEnum] at h
    rw [enumTable_addEnum]
    split at h
    · rename_i hk
      cases h
      exact ⟨hk.symm, howner, by simp [hk]⟩
    · rename_i hk
      rw [if_neg hk]
      exact hc.enum_held h
  enum_apart := by
    intro k h
    rw [separate?_addEnum] at h
    split at h
    · rename_i hk
      rw [hk]
      exact hfree
    · exact hc.enum_apart h

theorem nest (hc : c.Named) (e : EnumDecl) : (c.nest key e).Named := by
  have h : (c.modifyClass key (·.nestEnum e)).Named := hc.modifyClass fun _ => ⟨rfl, rfl⟩
  refine { h with enum_held := ?_ }
  intro k e' he
  obtain ⟨hk, howner, htable⟩ := hc.enum_held he
  refine ⟨hk, howner, ?_⟩
  rw [enumTable_nest]
  split
  · simp
  · exact htable

end Named

theorem Grows.named {digest : Digest} {owner? sealed? : Option TypeName} {c c' : Catalog}
    (h : Grows digest owner? sealed? c c') (hc : c.Named) : c'.Named := by
  induction h with
  | refl c => exact hc
  | trans _ _ ih ih' => exact ih' (ih hc)
  | newClass howner hfree _ hf ih =>
    exact (ih (hc.addClass hfree)).modifyClass fun d => ⟨hf.key_eq d, hf.fingerprint_eq d⟩
  | newAlias _ _ hfree => exact hc.addAlias hfree
  | join key =>
    refine hc.modifyClass fun d => ?_
    obtain ⟨_, _, h, _⟩ := d.growsTo_addSealedParent _
    rw [h]
    exact ⟨rfl, rfl⟩
  | newEnum howner hclass _ => exact hc.addEnum howner hclass
  | nest _ _ => exact hc.nest _

/-- A class or an alias has the name. -/
def IsDeclared (c : Catalog) (key : TypeKey) : Prop :=
  c.classes.class? key ≠ none ∨ c.classes.alias? key ≠ none

/-- New names come into the table together with what they name, and that stays. -/
structure Declares (c c' : Catalog) : Prop where
  kept : ∀ {key}, c.IsDeclared key → c'.IsDeclared key
  new : ∀ {key f}, c'.classes.table.get? key = some f →
    c'.IsDeclared key ∨ c.classes.table.get? key = some f

namespace Declares

theorem refl (c : Catalog) : Declares c c := ⟨id, .inr⟩

theorem trans {c c' c'' : Catalog} (h : Declares c c') (h' : Declares c' c'') :
    Declares c c'' where
  kept := h'.kept ∘ h.kept
  new hf := (h'.new hf).elim .inl fun hf => (h.new hf).imp_left h'.kept

variable {c : Catalog}

theorem addClass (d : ClassDecl) : Declares c (c.addClass d) where
  kept {key} h := by
    rw [IsDeclared, class?_addClass]
    split
    · exact .inl nofun
    · exact h
  new {key f} hf := by
    rw [table_addClass] at hf
    split at hf
    · rename_i hkey
      exact .inl (.inl (by rw [class?_addClass, if_pos hkey]; simp))
    · exact .inr hf

theorem addAlias (a : AliasDecl) : Declares c (c.addAlias a) where
  kept {key} h := by
    rw [IsDeclared, alias?_addAlias]
    split
    · exact .inr nofun
    · exact h
  new {key f} hf := by
    rw [table_addAlias] at hf
    split at hf
    · rename_i hkey
      exact .inl (.inr (by rw [alias?_addAlias, if_pos hkey]; simp))
    · exact .inr hf

theorem modifyClass (key : TypeKey) (f : ClassDecl → ClassDecl) :
    Declares c (c.modifyClass key f) where
  kept h := h.imp_left fun h => by rwa [class?_modifyClass, Ne, Option.map_eq_none_iff]
  new := .inr

end Declares

theorem Grows.declares {digest : Digest} {owner? sealed? : Option TypeName} {c c' : Catalog}
    (h : Grows digest owner? sealed? c c') : Declares c c' := by
  induction h with
  | refl c => exact .refl c
  | trans _ _ ih ih' => exact ih.trans ih'
  | newClass _ _ _ _ ih => exact ((Declares.addClass _).trans ih).trans (.modifyClass _ _)
  | newAlias _ _ _ => exact .addAlias _
  | join key => exact .modifyClass key _
  | newEnum _ _ _ => exact ⟨id, .inr⟩
  | @nest _ owner c e _ _ =>
    have h : Declares c (c.modifyClass owner.key (·.nestEnum e)) := .modifyClass _ _
    exact ⟨h.kept, h.new⟩

namespace Consistent

variable {c c' : Catalog}

theorem of_declares (hc : c.Consistent) (h : Declares c c') (hnamed : c'.Named) :
    c'.Consistent where
  toNamed := hnamed
  declared hf := (h.new hf).elim id fun hf => h.kept (hc.declared hf)

theorem addClass (hc : c.Consistent) {d : ClassDecl} (hfree : c.IsFree d.key) :
    (c.addClass d).Consistent :=
  hc.of_declares (.addClass d) (hc.toNamed.addClass hfree)

end Consistent

theorem Grows.consistent {digest : Digest} {owner? sealed? : Option TypeName} {c c' : Catalog}
    (h : Grows digest owner? sealed? c c') (hc : c.Consistent) : c'.Consistent :=
  hc.of_declares h.declares (h.named hc.toNamed)

/-! ## What stays -/

/-- All declarations are still there. -/
structure Keeps (c c' : Catalog) : Prop where
  classes : ∀ {k d}, c.classes.class? k = some d →
    ∃ d', c'.classes.class? k = some d' ∧ d.GrowsTo d'
  aliases : ∀ {k a}, c.classes.alias? k = some a → c'.classes.alias? k = some a
  enums : ∀ {k e}, c.enums.separate? k = some e → c'.enums.separate? k = some e

namespace Keeps

theorem refl (c : Catalog) : Keeps c c where
  classes {_ d} h := ⟨d, h, .refl d⟩
  aliases h := h
  enums h := h

theorem trans {c c' c'' : Catalog} (h : Keeps c c') (h' : Keeps c' c'') : Keeps c c'' where
  classes hd := by
    obtain ⟨d', hd', hgrow⟩ := h.classes hd
    obtain ⟨d'', hd'', hgrow'⟩ := h'.classes hd'
    exact ⟨d'', hd'', hgrow.trans hgrow'⟩
  aliases ha := h'.aliases (h.aliases ha)
  enums he := h'.enums (h.enums he)

variable {c : Catalog}

theorem addClass {d : ClassDecl} (hfree : c.classes.class? d.key = none) :
    Keeps c (c.addClass d) where
  classes {k d'} h := by
    have hk : k ≠ d.key := by
      rintro rfl
      rw [hfree] at h
      cases h
    exact ⟨d', by rw [class?_addClass, if_neg hk, h], .refl d'⟩
  aliases h := h
  enums h := h

theorem addAlias {a : AliasDecl} (hfree : c.classes.alias? a.key = none) :
    Keeps c (c.addAlias a) where
  classes {_ d} h := ⟨d, h, .refl d⟩
  aliases {k a'} h := by
    have hk : k ≠ a.key := by
      rintro rfl
      rw [hfree] at h
      cases h
    rw [alias?_addAlias, if_neg hk, h]
  enums h := h

theorem addEnum {e : EnumDecl} (hfree : c.enums.separate? e.key = none) :
    Keeps c (c.addEnum e) where
  classes {_ d} h := ⟨d, h, .refl d⟩
  aliases h := h
  enums {k e'} h := by
    have hk : k ≠ e.key := by
      rintro rfl
      rw [hfree] at h
      cases h
    rw [separate?_addEnum, if_neg hk, h]

theorem modifyClass {key : TypeKey} {f : ClassDecl → ClassDecl}
    (hf : ∀ d, c.classes.class? key = some d → d.GrowsTo (f d)) :
    Keeps c (c.modifyClass key f) where
  classes {k d} h := by
    rw [class?_modifyClass, h]
    refine ⟨_, rfl, ?_⟩
    split
    · rename_i hk
      exact hf d (hk ▸ h)
    · exact .refl d
  aliases h := h
  enums h := h

end Keeps

/-- A catalog that grows keeps its declarations. Members are set only in classes that came with the
growth. -/
theorem Grows.keeps_of_named {digest : Digest} {owner? sealed? : Option TypeName} {c c' : Catalog}
    (h : Grows digest owner? sealed? c c') (hc : c.Named) : Keeps c c' := by
  induction h with
  | refl c => exact .refl c
  | trans h _ ih ih' => exact (ih hc).trans (ih' (h.named hc))
  | @newClass _ _ c c' type node kind role f howner hfree h hf ih =>
    have hadd :
        Keeps c (c.addClass (.ofSchema type (node.fingerprint digest) kind role node.info)) :=
      .addClass (hc.class?_of_free hfree.1)
    have hnew := hadd.trans (ih (hc.addClass hfree))
    refine ⟨fun {k d} hd => ?_, hnew.aliases, hnew.enums⟩
    have hk : k ≠ type.key := by
      rintro rfl
      rw [hc.class?_of_free hfree.1] at hd
      cases hd
    obtain ⟨d', hd', hgrow⟩ := hnew.classes hd
    exact ⟨d', by rw [class?_modifyClass, hd', Option.map_some, if_neg hk], hgrow⟩
  | newAlias _ _ hfree => exact .addAlias (hc.alias?_of_free hfree.1)
  | join key => exact .modifyClass fun d _ => d.growsTo_addSealedParent _
  | newEnum _ _ hfree => exact .addEnum (hc.separate?_of_free hfree)
  | @nest _ owner c e _ _ =>
    have h : Keeps c (c.modifyClass owner.key (·.nestEnum e)) :=
      .modifyClass fun d _ => d.growsTo_nestEnum e
    exact ⟨h.classes, h.aliases, fun h => h⟩

theorem Grows.keeps {digest : Digest} {owner? sealed? : Option TypeName} {c c' : Catalog}
    (h : Grows digest owner? sealed? c c') (hc : c.Consistent) : Keeps c c' :=
  h.keeps_of_named hc.toNamed

end Catalog

end ThingTypes
