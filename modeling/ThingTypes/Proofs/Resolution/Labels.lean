import ThingTypes.Proofs.Resolution.Names

/-
  The fingerprints of a catalog: that of a class comes from a schema, and that of an alias from its
  target. The descriptions of the two never coincide, so with a digest that tells descriptions apart
  the fingerprint of a name says whether a class or an alias has it.
-/

namespace ThingTypes

/-! ## Descriptions of classes and aliases -/

theorem SchemaNode.exists_skeleton_eq_object (node : SchemaNode) :
    ∃ members, node.skeleton = .object members := by
  obtain ⟨info, _ | _ | ⟨_, _, _, _, _⟩ | _⟩ := node
  all_goals
    rw [skeleton]
    exact ⟨_, rfl⟩

theorem SchemaNode.head?_canonical_skeleton (node : SchemaNode) :
    node.skeleton.canonical.toList.head? = some '\x7b' := by
  obtain ⟨members, h⟩ := node.exists_skeleton_eq_object
  rw [h, Json.canonical, Json.sorted, Json.compact, Json.render, String.toList_ofList]
  rfl

theorem SchemaNode.getLast?_canonical_skeleton (node : SchemaNode) :
    node.skeleton.canonical.toList.getLast? = some '\x7d' := by
  obtain ⟨members, h⟩ := node.exists_skeleton_eq_object
  rw [h, Json.canonical, Json.sorted, Json.compact, Json.render, String.toList_ofList,
    ← List.cons_append, List.getLast?_concat]

theorem memberText_aliasMembers (target : TypeRef) :
    Fingerprint.memberText (Resolution.aliasMembers target) = "alias:" ++ target.signature := by
  change "alias" ++ ":" ++ target.signature = _
  simp

/-- No class has the fingerprint of an alias. -/
theorem SchemaNode.fingerprint_ne_ofMembers {digest : Digest} (hdigest : Function.Injective digest)
    (node : SchemaNode) (target : TypeRef) :
    node.fingerprint digest ≠ .ofMembers digest (Resolution.aliasMembers target) := by
  intro h
  have htext : node.skeleton.canonical = "alias:" ++ target.signature := by
    rw [← memberText_aliasMembers]
    exact hdigest h
  have hhead := node.head?_canonical_skeleton
  rw [htext, String.toList_append] at hhead
  simp at hhead

/-- A digest that tells descriptions apart: it leaves them as they are. -/
def plainDigest : Digest := fun text => ⟨text⟩

theorem plainDigest_injective : Function.Injective plainDigest := fun _ _ h => by cases h; rfl

/-! ## Fingerprints in a catalog -/

namespace Catalog

/-- Classes have fingerprints of schemas, and aliases those of their targets. -/
structure Labelled (digest : Digest) (c : Catalog) : Prop where
  class_label : ∀ {k d}, c.classes.class? k = some d →
    ∃ node : SchemaNode, d.fingerprint = node.fingerprint digest
  alias_label : ∀ {k a}, c.classes.alias? k = some a →
    a.fingerprint = .ofMembers digest (Resolution.aliasMembers a.target)

theorem labelled_empty (digest : Digest) : Labelled digest {} where
  class_label h := by cases h
  alias_label h := by cases h

variable {digest : Digest} {c c' : Catalog} {key : TypeKey}

theorem Labelled.modifyClass (hl : c.Labelled digest) {f : ClassDecl → ClassDecl}
    (hf : ∀ d, (f d).fingerprint = d.fingerprint) : (c.modifyClass key f).Labelled digest where
  class_label h := by
    rw [class?_modifyClass, Option.map_eq_some_iff] at h
    obtain ⟨d, hd, rfl⟩ := h
    obtain ⟨node, hnode⟩ := hl.class_label hd
    refine ⟨node, ?_⟩
    split
    · rw [hf, hnode]
    · exact hnode
  alias_label := hl.alias_label

theorem Grows.labelled {owner? sealed? : Option TypeName} (h : Grows digest owner? sealed? c c')
    (hl : c.Labelled digest) : c'.Labelled digest := by
  induction h with
  | refl c => exact hl
  | trans _ _ ih ih' => exact ih' (ih hl)
  | @newClass _ _ c c' type node kind role f _ _ _ hf ih =>
    refine (ih ⟨fun {k d} h => ?_, hl.alias_label⟩).modifyClass fun d => ?_
    · rw [class?_addClass] at h
      split at h
      · cases h
        exact ⟨node, rfl⟩
      · exact hl.class_label h
    · exact hf.fingerprint_eq d
  | @newAlias _ _ c a _ hfingerprint _ =>
    refine ⟨hl.class_label, fun {k a'} h => ?_⟩
    rw [alias?_addAlias] at h
    split at h
    · cases h
      exact hfingerprint
    · exact hl.alias_label h
  | join key =>
    refine hl.modifyClass fun d => ?_
    obtain ⟨_, _, h, _⟩ := d.growsTo_addSealedParent _
    rw [h]
  | newEnum => exact ⟨hl.class_label, hl.alias_label⟩
  | @nest _ owner c e _ _ =>
    have h : (c.modifyClass owner.key (·.nestEnum e)).Labelled digest := hl.modifyClass fun _ => rfl
    exact ⟨h.class_label, h.alias_label⟩

/-- Every name in the table is accounted for: a class or an alias has it, or else something whose
description is one of the others. -/
structure Accounted (digest : Digest) (others : String → Prop) (c : Catalog) : Prop extends
    Named c, Labelled digest c where
  accounted : ∀ {k f}, c.classes.table.get? k = some f →
    c.IsDeclared k ∨ ∃ text, others text ∧ f = digest text

variable {others : String → Prop}

theorem accounted_empty (digest : Digest) (others : String → Prop) :
    Accounted digest others {} :=
  { consistent_empty.toNamed, labelled_empty digest with accounted := nofun }

theorem Grows.accounted {owner? sealed? : Option TypeName} (h : Grows digest owner? sealed? c c')
    (hc : c.Accounted digest others) : c'.Accounted digest others where
  toNamed := h.named hc.toNamed
  toLabelled := h.labelled hc.toLabelled
  accounted hf :=
    (h.declares.new hf).elim .inl fun hf => (hc.accounted hf).imp_left h.declares.kept

namespace Accounted

theorem modifyClass (hc : c.Accounted digest others) {f : ClassDecl → ClassDecl}
    (hf : ∀ d, (f d).key = d.key ∧ (f d).fingerprint = d.fingerprint) :
    (c.modifyClass key f).Accounted digest others where
  toNamed := hc.toNamed.modifyClass hf
  toLabelled := hc.toLabelled.modifyClass fun d => (hf d).2
  accounted hf := (hc.accounted hf).imp_left (Declares.modifyClass key f).kept

/-- A name with the fingerprint of a schema is the name of a class. -/
theorem exists_class (hc : c.Accounted digest others) (hdigest : Function.Injective digest)
    {node : SchemaNode} (hothers : ¬others node.skeleton.canonical)
    (h : c.classes.table.get? key = some (node.fingerprint digest)) :
    ∃ d, c.classes.class? key = some d ∧ d.fingerprint = node.fingerprint digest := by
  rcases hc.accounted h with (hd | ha) | ⟨text, htext, hf⟩
  · obtain ⟨d, hd⟩ := Option.ne_none_iff_exists'.mp hd
    rw [(hc.class_held hd).2, Option.some.injEq] at h
    exact ⟨d, hd, h⟩
  · obtain ⟨a, ha⟩ := Option.ne_none_iff_exists'.mp ha
    rw [(hc.alias_held ha).2, Option.some.injEq, hc.alias_label ha] at h
    exact absurd h.symm (node.fingerprint_ne_ofMembers hdigest a.target)
  · have hsame : node.skeleton.canonical = text := hdigest hf
    exact absurd (hsame ▸ htext) hothers

/-- A name with the fingerprint of an alias is the name of an alias of that description. -/
theorem exists_alias (hc : c.Accounted digest others) (hdigest : Function.Injective digest)
    {target : TypeRef} (hothers : ¬others ("alias:" ++ target.signature))
    (h : c.classes.table.get? key = some (.ofMembers digest (Resolution.aliasMembers target))) :
    ∃ a, c.classes.alias? key = some a ∧ a.target.signature = target.signature := by
  rcases hc.accounted h with (hd | ha) | ⟨text, htext, hf⟩
  · obtain ⟨d, hd⟩ := Option.ne_none_iff_exists'.mp hd
    obtain ⟨node, hnode⟩ := hc.class_label hd
    rw [(hc.class_held hd).2, Option.some.injEq, hnode] at h
    exact absurd h (node.fingerprint_ne_ofMembers hdigest target)
  · obtain ⟨a, ha⟩ := Option.ne_none_iff_exists'.mp ha
    rw [(hc.alias_held ha).2, Option.some.injEq, hc.alias_label ha] at h
    refine ⟨a, ha, ?_⟩
    have htext := hdigest h
    rw [memberText_aliasMembers, memberText_aliasMembers] at htext
    exact (String.append_right_inj _).mp htext
  · have hsame : Fingerprint.memberText (Resolution.aliasMembers target) = text := hdigest hf
    rw [memberText_aliasMembers] at hsame
    exact absurd (hsame ▸ htext) hothers

end Accounted

/-- What every catalog is that resolutions have filled. -/
structure WellFormed (digest : Digest) (c : Catalog) : Prop extends
  Consistent c, Labelled digest c

theorem wellFormed_empty (digest : Digest) : WellFormed digest {} :=
  ⟨consistent_empty, labelled_empty digest⟩

theorem Grows.wellFormed {owner? sealed? : Option TypeName} (h : Grows digest owner? sealed? c c')
    (hc : c.WellFormed digest) : c'.WellFormed digest :=
  ⟨h.consistent hc.toConsistent, h.labelled hc.toLabelled⟩

namespace WellFormed

/-- A class may be declared under any name that is free. -/
theorem addClassFrame {s : ResolutionSettings} (hc : c.WellFormed s.digest) {info : SchemaInfo}
    {shape : ObjectSchema} {site : Site} {kind : ClassKind} {type : TypeName}
    (howner : type.owner? = none) (hfree : c.IsFree type.key) :
    (c.addClass (Resolution.classFrame s info shape site kind type)).WellFormed s.digest := by
  have hgrows : Grows s.digest none none c
      (c.addClass (Resolution.classFrame s info shape site kind type)) :=
    .newFrame howner hfree (.refl _)
  exact hgrows.wellFormed hc

theorem accounted (hc : c.WellFormed digest) : c.Accounted digest fun _ => False :=
  { hc.toNamed, hc.toLabelled with accounted := fun hf => .inl (hc.declared hf) }

theorem exists_class (hc : c.WellFormed digest) (hdigest : Function.Injective digest)
    {node : SchemaNode} (h : c.classes.table.get? key = some (node.fingerprint digest)) :
    ∃ d, c.classes.class? key = some d ∧ d.fingerprint = node.fingerprint digest :=
  hc.accounted.exists_class hdigest not_false h

theorem exists_alias (hc : c.WellFormed digest) (hdigest : Function.Injective digest)
    {target : TypeRef}
    (h : c.classes.table.get? key = some (.ofMembers digest (Resolution.aliasMembers target))) :
    ∃ a, c.classes.alias? key = some a ∧ a.target.signature = target.signature :=
  hc.accounted.exists_alias hdigest not_false h

end WellFormed

end Catalog

end ThingTypes
