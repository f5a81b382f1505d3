import ThingTypes.Proofs.Identifier.Plain
import ThingTypes.Proofs.Resolution.Calls

/-
  Every reference leads somewhere. A type that a schema resolves to, and every type that a
  declaration mentions, names something that the catalog holds (`TypeRef.HeldIn`, `Catalog.Closed`).

  A name that held its structure before is answered without a declaration. So the proof has to know
  what can have the name: a class, an alias, or an interface of actions, which holds a name without
  being declared. Their descriptions are told apart by their texts, as far as names are plain.
-/

namespace ThingTypes

/-! ## What a reference leads to -/

namespace Catalog

/-- A class has the name. -/
def HoldsClass (c : Catalog) (type : TypeName) : Prop :=
  type.owner? = none ∧ c.classes.class? type.key ≠ none

/-- An enum of this name is nested in a class. -/
def HoldsNested (c : Catalog) (owner : TypeKey) (name : String) : Prop :=
  ∃ d, c.classes.class? owner = some d ∧ d.nestedEnum? name ≠ none

end Catalog

/-- The catalog holds what the reference names. An enum at the top level is asked for only where all
enums are separate: otherwise its name may be that of a nested enum. -/
def TypeRef.HeldIn (placement : EnumPlacement) (c : Catalog) : TypeRef → Prop
  | primitive _ | unit => True
  | classType type => c.HoldsClass type
  | aliasType type => type.owner? = none ∧ c.classes.alias? type.key ≠ none
  | enumType type =>
    match type.owner? with
    | some owner => c.HoldsNested ⟨type.package, owner⟩ type.name
    | none => placement = .separate → c.enums.separate? type.key ≠ none
  | list item | map item => item.HeldIn placement c

structure ClassDecl.Closed (placement : EnumPlacement) (c : Catalog) (d : ClassDecl) : Prop where
  fields : ∀ field ∈ d.fields, field.type.HeldIn placement c
  variants : ∀ variant ∈ d.variants, variant.HeldIn placement c
  mapValue : ∀ value ∈ d.mapValue?, value.HeldIn placement c
  parents : ∀ parent ∈ d.sealedParents, c.HoldsClass parent

structure AliasDecl.Closed (placement : EnumPlacement) (c : Catalog) (a : AliasDecl) : Prop where
  target : a.target.HeldIn placement c
  parent : ∀ parent ∈ a.sealedParent?, c.HoldsClass parent

namespace Catalog

/-- No declaration mentions anything that the catalog does not hold. -/
structure Closed (placement : EnumPlacement) (c : Catalog) : Prop where
  classes : ∀ {k d}, c.classes.class? k = some d → d.Closed placement c
  aliases : ∀ {k a}, c.classes.alias? k = some a → a.Closed placement c

theorem closed_empty (placement : EnumPlacement) : Closed placement {} := ⟨nofun, nofun⟩

/-! ## What references read is kept -/

/-- All that references ask for is still there. -/
structure Retains (c c' : Catalog) : Prop where
  classes : ∀ {k d}, c.classes.class? k = some d → ∃ d', c'.classes.class? k = some d' ∧
    ∀ name, d.nestedEnum? name ≠ none → d'.nestedEnum? name ≠ none
  aliases : ∀ {k}, c.classes.alias? k ≠ none → c'.classes.alias? k ≠ none
  enums : ∀ {k}, c.enums.separate? k ≠ none → c'.enums.separate? k ≠ none

namespace Retains

variable {c c' c'' : Catalog}

theorem refl (c : Catalog) : Retains c c := ⟨fun h => ⟨_, h, fun _ => id⟩, id, id⟩

theorem trans (h : Retains c c') (h' : Retains c' c'') : Retains c c'' where
  classes hd := by
    obtain ⟨d', hd', hnested⟩ := h.classes hd
    obtain ⟨d'', hd'', hnested'⟩ := h'.classes hd'
    exact ⟨d'', hd'', fun name => hnested' name ∘ hnested name⟩
  aliases := h'.aliases ∘ h.aliases
  enums := h'.enums ∘ h.enums

theorem addClass {d : ClassDecl} (hfree : c.classes.class? d.key = none) :
    Retains c (c.addClass d) where
  classes {k d'} h := by
    have hk : k ≠ d.key := by
      rintro rfl
      rw [hfree] at h
      cases h
    exact ⟨d', by rw [class?_addClass, if_neg hk, h], fun _ => id⟩
  aliases := id
  enums := id

theorem addAlias (a : AliasDecl) : Retains c (c.addAlias a) where
  classes h := ⟨_, h, fun _ => id⟩
  aliases {k} h := by
    rw [alias?_addAlias]
    split
    · exact nofun
    · exact h
  enums := id

theorem addEnum (e : EnumDecl) : Retains c (c.addEnum e) where
  classes h := ⟨_, h, fun _ => id⟩
  aliases := id
  enums {k} h := by
    rw [separate?_addEnum]
    split
    · exact nofun
    · exact h

theorem modifyClass {key : TypeKey} {f : ClassDecl → ClassDecl}
    (hf : ∀ d name, d.nestedEnum? name ≠ none → (f d).nestedEnum? name ≠ none) :
    Retains c (c.modifyClass key f) where
  classes {k d} h := by
    rw [class?_modifyClass, h]
    refine ⟨_, rfl, fun name hname => ?_⟩
    split
    · exact hf d name hname
    · exact hname
  aliases := id
  enums := id

end Retains

end Catalog

namespace Catalog

variable {c c' : Catalog} {digest : Digest} {placement : EnumPlacement}

theorem Retains.nest (owner : TypeKey) (e : EnumDecl) : Retains c (c.nest owner e) := by
  have h : Retains c (c.modifyClass owner (·.nestEnum e)) := .modifyClass fun d name hname => by
    rw [ClassDecl.nestedEnum?_nestEnum]
    split
    · exact nofun
    · exact hname
  exact ⟨h.classes, h.aliases, id⟩

theorem Grows.retains {owner? sealed? : Option TypeName} (h : Grows digest owner? sealed? c c')
    (hc : c.Named) : Retains c c' := by
  induction h with
  | refl c => exact .refl c
  | trans h _ ih ih' => exact (ih hc).trans (ih' (h.named hc))
  | @newClass _ _ c c' type node kind role f _ hfree _ hf ih =>
    have hadd :
        Retains c (c.addClass (.ofSchema type (node.fingerprint digest) kind role node.info)) :=
      .addClass (hc.class?_of_free hfree.1)
    refine (hadd.trans (ih (hc.addClass hfree))).trans (.modifyClass fun d name hname => ?_)
    rw [ClassDecl.nestedEnum?, hf.nestedEnums_eq]
    exact hname
  | newAlias _ _ _ => exact .addAlias _
  | join key =>
    refine .modifyClass fun d name hname => ?_
    obtain ⟨_, h, _⟩ := d.addSealedParent_eq _
    rwa [h]
  | newEnum _ _ _ => exact .addEnum _
  | nest _ _ => exact .nest _ _

theorem HoldsClass.retained {type : TypeName} (h : c.HoldsClass type) (hkept : Retains c c') :
    c'.HoldsClass type := by
  obtain ⟨howner, hclass⟩ := h
  obtain ⟨d, hd⟩ := Option.ne_none_iff_exists'.mp hclass
  obtain ⟨d', hd', _⟩ := hkept.classes hd
  exact ⟨howner, by simp [hd']⟩

end Catalog

section Retained

variable {c c' : Catalog} {placement : EnumPlacement}

theorem TypeRef.HeldIn.retained (hkept : c.Retains c') :
    ∀ {type : TypeRef}, type.HeldIn placement c → type.HeldIn placement c'
  | primitive _, h | unit, h => h
  | classType _, h => Catalog.HoldsClass.retained h hkept
  | aliasType _, h => ⟨h.1, hkept.aliases h.2⟩
  | enumType type, h => by
    unfold HeldIn at h ⊢
    cases howner : type.owner? with
    | none =>
      rw [howner] at h
      exact fun hplacement => hkept.enums (h hplacement)
    | some owner =>
      rw [howner] at h
      obtain ⟨d, hd, hname⟩ := h
      obtain ⟨d', hd', hnested⟩ := hkept.classes hd
      exact ⟨d', hd', hnested _ hname⟩
  | list item, h =>
    have hitem : item.HeldIn placement c := h
    hitem.retained hkept
  | map item, h =>
    have hitem : item.HeldIn placement c := h
    hitem.retained hkept

theorem ClassDecl.Closed.retained {d : ClassDecl} (h : d.Closed placement c)
    (hkept : c.Retains c') : d.Closed placement c' where
  fields field hmem := (h.fields field hmem).retained hkept
  variants variant hmem := (h.variants variant hmem).retained hkept
  mapValue value hmem := (h.mapValue value hmem).retained hkept
  parents parent hmem := (h.parents parent hmem).retained hkept

theorem AliasDecl.Closed.retained {a : AliasDecl} (h : a.Closed placement c)
    (hkept : c.Retains c') : a.Closed placement c' where
  target := h.target.retained hkept
  parent parent hmem := (h.parent parent hmem).retained hkept

end Retained

/-! ## Plain names -/

structure TypeName.IsPlain (type : TypeName) : Prop where
  package : Plain type.package
  name : IsName type.name
  owner : ∀ owner ∈ type.owner?, Plain owner

/-- All names in the type are plain. -/
def TypeRef.IsPlain (type : TypeRef) : Prop := ∀ name ∈ type.referencedName?, name.IsPlain

theorem TypeName.IsPlain.plain_display {type : TypeName} (h : type.IsPlain) :
    Plain type.display := by
  have hlocal : Plain type.localName := by
    unfold localName
    split
    · rename_i owner howner
      exact ((h.owner owner howner).append (by decide)).append h.name.plain
    · exact h.name.plain
  unfold display inPackage
  split
  · exact hlocal
  · exact (h.package.append (by decide)).append hlocal

theorem TypeRef.IsPlain.plain_signature : ∀ {type : TypeRef}, type.IsPlain → Plain type.signature
  | primitive kind, _ => by cases kind <;> decide
  | unit, _ => by decide
  | classType type, h => .append (by decide) (h type rfl).plain_display
  | enumType type, h => .append (by decide) (h type rfl).plain_display
  | aliasType type, h => .append (by decide) (h type rfl).plain_display
  | list item, h =>
    have hitem : item.IsPlain := h
    .append (.append (by decide) hitem.plain_signature) (by decide)
  | map item, h =>
    have hitem : item.IsPlain := h
    .append (.append (by decide) hitem.plain_signature) (by decide)

/-- The description of an interface of actions. It has the arrow between an input and an output, and
it ends with a type. -/
def IsInterfaceText (text : String) : Prop :=
  '-' ∈ text.toList ∧ text.toList.getLast? ≠ some '\x7d'

theorem SchemaNode.not_isInterfaceText (node : SchemaNode) :
    ¬IsInterfaceText node.skeleton.canonical := fun h =>
  h.2 node.getLast?_canonical_skeleton

theorem Plain.not_isInterfaceText {text : String} (h : Plain text) : ¬IsInterfaceText text :=
  fun htext => (h _ htext.1).1 rfl

namespace Resolution

variable {s : ResolutionSettings} {site : Site} {outer name : String} {type : TypeName}

section Rule

variable {Front Name : String → Prop} (rule : Identifier.NameRule Front Name)
include rule

/-- A name that a class gets is made of its class name. -/
theorem Offers.of_rule (h : Offers s site name type) (hname : Name (Identifier.className name))
    (hparent : ∀ parent ∈ site.context.parentName?, Front parent)
    (hfeature : ∀ feature ∈ site.context.feature?, Front feature) : Name type.name := by
  obtain ⟨taken, hmem⟩ := h.candidate
  exact rule.of_mem_searchCandidates (rule.deriveName hname hparent _ taken) hparent hfeature hmem

theorem of_separateEnumName {c : Catalog} {fingerprint : Fingerprint} {found : String}
    (hname : Name name) (hparent : ∀ parent ∈ site.context.parentName?, Front parent)
    (hfeature : ∀ feature ∈ site.context.feature?, Front feature)
    (hfound : separateEnumName s c name fingerprint site = .ok found) : Name found := by
  have hderived (taken : List String) :
      Name (Identifier.deriveName s.naming name site.context.parentName? taken) :=
    rule.deriveName hname hparent _ taken
  unfold separateEnumName at hfound
  dsimp only at hfound
  split at hfound
  · cases hfound
    exact hderived _
  · split at hfound
    · rename_i free hfree
      cases hfound
      exact rule.of_mem_searchCandidates (hderived _) hparent hfeature
        (List.mem_of_find?_eq_some hfree)
    · cases hfound

end Rule

/-- The site is in a package below the outer one, and all names around it are plain. -/
structure Beneath (outer : String) (site : Site) : Prop where
  deeper : outer.length < site.package.length
  package : Plain site.package
  parent : ∀ parent ∈ site.context.parent?, parent.IsPlain
  feature : ∀ feature ∈ site.context.feature?, NameText feature

namespace Beneath

theorem child (h : Beneath outer site) (segment : String) : Beneath outer (site.child segment) :=
  ⟨h.deeper, h.package, h.parent, h.feature⟩

theorem inside (h : Beneath outer site) (htype : type.IsPlain) :
    Beneath outer (site.inside type) := by
  have hpackage : Plain site.innerPackage ∧ site.package.length ≤ site.innerPackage.length := by
    unfold Site.innerPackage
    split
    · refine ⟨h.package.append (by decide), ?_⟩
      rw [String.length_append]
      omega
    · exact ⟨h.package, Nat.le_refl _⟩
  refine ⟨Nat.lt_of_lt_of_le h.deeper hpackage.2, hpackage.1, ?_, h.feature⟩
  rintro parent ⟨⟩
  exact htype

theorem nameText_parentName (h : Beneath outer site) :
    ∀ parent ∈ site.context.parentName?, NameText parent := by
  intro parent hmem
  obtain ⟨type, htype, rfl⟩ := Option.map_eq_some_iff.mp hmem
  exact (h.parent type htype).name.chars

theorem isPlain_of_offers (h : Beneath outer site) (hoffers : Offers s site name type) :
    type.IsPlain := by
  have hname : IsName (Identifier.className name) :=
    ⟨hoffers.ne_empty, Identifier.nameText_className name⟩
  refine ⟨hoffers.topLevel.1 ▸ h.package, ?_, by simp [hoffers.topLevel.2]⟩
  exact hoffers.of_rule Identifier.isName_rule hname h.nameText_parentName h.feature

theorem isName_separateEnumName {c : Catalog} {fingerprint : Fingerprint} {found : String}
    (h : Beneath outer site) (hname : IsName name)
    (hfound : separateEnumName s c name fingerprint site = .ok found) : IsName found :=
  of_separateEnumName Identifier.isName_rule hname h.nameText_parentName h.feature hfound

end Beneath

theorem isName_of_hintedName? {hint? title? : Option String}
    (h : hintedName? hint? title? = some name) : IsName name := by
  obtain ⟨hname, hne⟩ := Option.filter_eq_some_iff.mp h
  obtain ⟨hint, _, rfl⟩ := Option.map_eq_some_iff.mp hname
  exact ⟨by simpa using hne, Identifier.nameText_className hint⟩

end Resolution

/-! ## Declarations -/

namespace Catalog

/-- What a resolution below the package `outer` may rely on: names are accounted for, references are
closed, all names are in deeper packages, and separate enums are in no class. -/
structure Linked (s : ResolutionSettings) (outer : String) (c : Catalog) : Prop extends
    Accounted s.digest IsInterfaceText c, Closed s.placement c where
  beneath : ∀ {k}, c.classes.table.get? k ≠ none → outer.length < k.package.length
  separate : s.placement = .separate →
    ∀ {k}, c.enums.table.get? k ≠ none → c.enums.separate? k ≠ none

theorem linked_empty (s : ResolutionSettings) (outer : String) : Linked s outer {} :=
  { accounted_empty s.digest IsInterfaceText, closed_empty s.placement with
    beneath := fun h => absurd rfl h
    separate := fun _ _ h => absurd rfl h }

namespace Linked

variable {s : ResolutionSettings} {outer : String} {c c' : Catalog} {type parent : TypeName}

/-- A class that is declared has no references yet. -/
theorem addClassFrame (hc : c.Linked s outer) {info : SchemaInfo} {shape : ObjectSchema}
    {site : Site} {kind : ClassKind} (howner : type.owner? = none) (hfree : c.IsFree type.key)
    (hdeeper : outer.length < type.package.length) :
    (c.addClass (Resolution.classFrame s info shape site kind type)).Linked s outer where
  toAccounted := by
    have hgrows : Grows s.digest none none c
        (c.addClass (Resolution.classFrame s info shape site kind type)) :=
      .newFrame howner hfree (.refl _)
    exact hgrows.accounted hc.toAccounted
  toClosed := by
    have hkept : Retains c (c.addClass (Resolution.classFrame s info shape site kind type)) :=
      .addClass (hc.class?_of_free hfree.1)
    refine ⟨fun {k d} h => ?_, fun h => (hc.aliases h).retained hkept⟩
    rw [class?_addClass] at h
    split at h
    · cases h
      exact ⟨nofun, nofun, nofun, nofun⟩
    · exact (hc.classes h).retained hkept
  beneath {k} h := by
    rw [table_addClass] at h
    split at h
    · rename_i hk
      rw [hk]
      exact hdeeper
    · exact hc.beneath h
  separate := hc.separate

/-- A class gets members or parents that the catalog holds. -/
theorem modifyClass (hc : c.Linked s outer) {key : TypeKey} {f : ClassDecl → ClassDecl}
    (hf : ∀ d, (f d).key = d.key ∧ (f d).fingerprint = d.fingerprint ∧
      (f d).nestedEnums = d.nestedEnums)
    (hclosed : ∀ c', Retains c c' → ∀ d, d.Closed s.placement c' → (f d).Closed s.placement c') :
    (c.modifyClass key f).Linked s outer := by
  have hkept : Retains c (c.modifyClass key f) := .modifyClass fun d name hname => by
    rw [ClassDecl.nestedEnum?, (hf d).2.2]
    exact hname
  refine { hc.toAccounted.modifyClass fun d => ⟨(hf d).1, (hf d).2.1⟩ with
    classes := fun {k d} h => ?_, aliases := fun h => (hc.aliases h).retained hkept
    beneath := hc.beneath, separate := hc.separate }
  rw [class?_modifyClass, Option.map_eq_some_iff] at h
  obtain ⟨d', hd', rfl⟩ := h
  have hd := (hc.classes hd').retained hkept
  split
  · exact hclosed _ hkept d' hd
  · exact hd

theorem setMembers (hc : c.Linked s outer) {key : TypeKey} {f : ClassDecl → ClassDecl}
    (hf : ClassDecl.SetsMembers f)
    (hclosed : ∀ c', Retains c c' → ∀ d, d.Closed s.placement c' → (f d).Closed s.placement c') :
    (c.modifyClass key f).Linked s outer :=
  hc.modifyClass (fun d => ⟨hf.key_eq d, hf.fingerprint_eq d, hf.nestedEnums_eq d⟩) hclosed

theorem join (hc : c.Linked s outer) (key : TypeKey) (hparent : c.HoldsClass parent) :
    (c.modifyClass key (·.addSealedParent parent)).Linked s outer := by
  refine hc.modifyClass (fun d => ?_) fun c' hkept d hd => ?_
  · obtain ⟨parents, h, _⟩ := d.addSealedParent_eq parent
    rw [h]
    exact ⟨rfl, rfl, rfl⟩
  · have hparents : ∀ parent' ∈ (d.addSealedParent parent).sealedParents,
        c'.HoldsClass parent' := by
      intro parent' hmem
      rcases (d.mem_sealedParents_addSealedParent parent parent').mp hmem with hmem | rfl
      · exact hd.parents parent' hmem
      · exact hparent.retained hkept
    obtain ⟨parents, h, _⟩ := d.addSealedParent_eq parent
    rw [h] at hparents ⊢
    exact ⟨hd.fields, hd.variants, hd.mapValue, hparents⟩

theorem addAlias (hc : c.Linked s outer) {target : TypeRef} (hfree : c.IsFree type.key)
    (hdeeper : outer.length < type.package.length) (htarget : target.HeldIn s.placement c)
    (hparent : c.HoldsClass parent) :
    (c.addAlias
      { package := type.package, name := type.name, target
        fingerprint := .ofMembers s.digest (Resolution.aliasMembers target)
        sealedParent? := some parent }).Linked s outer := by
  generalize ha : AliasDecl.mk type.package type.name target (some parent)
    (.ofMembers s.digest (Resolution.aliasMembers target)) = a
  have hgrows : Grows s.digest none (some parent) c (c.addAlias a) := by
    subst ha
    exact .newAlias rfl rfl hfree
  have hkept : Retains c (c.addAlias a) := .addAlias a
  refine { hgrows.accounted hc.toAccounted with
    classes := fun h => (hc.classes h).retained hkept, aliases := fun {k a'} h => ?_
    beneath := fun {k} h => ?_, separate := hc.separate }
  · rw [alias?_addAlias] at h
    split at h
    · cases h
      subst ha
      refine ⟨htarget.retained hkept, ?_⟩
      rintro _ ⟨⟩
      exact hparent.retained hkept
    · exact (hc.aliases h).retained hkept
  · rw [table_addAlias] at h
    split at h
    · rename_i hk
      subst ha
      rw [hk]
      exact hdeeper
    · exact hc.beneath h

theorem addEnum (hc : c.Linked s outer) {e : EnumDecl} (howner : e.owner? = none)
    (hclass : c.classes.table.get? e.key = none) (henum : c.enums.table.get? e.key = none) :
    (c.addEnum e).Linked s outer := by
  have hgrows : Grows s.digest none none c (c.addEnum e) := .newEnum howner hclass henum
  have hkept : Retains c (c.addEnum e) := .addEnum e
  refine { hgrows.accounted hc.toAccounted with
    classes := fun h => (hc.classes h).retained hkept
    aliases := fun h => (hc.aliases h).retained hkept
    beneath := hc.beneath, separate := fun hplacement {k} h => ?_ }
  rw [enumTable_addEnum] at h
  rw [separate?_addEnum]
  split
  · exact nofun
  · rename_i hk
    rw [if_neg hk] at h
    exact hc.separate hplacement h

theorem nest (hc : c.Linked s outer) (hplacement : s.placement = .inline) {owner : TypeName}
    {e : EnumDecl} (howner : e.owner? = some owner.name) (hpackage : e.package = owner.package) :
    (c.nest owner.key e).Linked s outer := by
  have hgrows : Grows s.digest (some owner) none c (c.nest owner.key e) := .nest howner hpackage
  have hkept : Retains c (c.nest owner.key e) := .nest owner.key e
  refine { hgrows.accounted hc.toAccounted with
    classes := fun {k d} h => ?_, aliases := fun h => (hc.aliases h).retained hkept
    beneath := hc.beneath, separate := fun h => by rw [hplacement] at h; cases h }
  rw [class?_nest, Option.map_eq_some_iff] at h
  obtain ⟨d', hd', rfl⟩ := h
  have hd := (hc.classes hd').retained hkept
  split
  · exact ⟨hd.fields, hd.variants, hd.mapValue, hd.parents⟩
  · exact hd

end Linked

end Catalog

end ThingTypes
