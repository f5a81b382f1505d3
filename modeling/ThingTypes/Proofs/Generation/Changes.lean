import Mathlib.Logic.Relation
import ThingTypes.Proofs.Generation.Closure

/-
  What happens to the catalog while types are declared, change by change, and which schema each
  change comes from. `Catalog.Change` lists the changes. `Resolution.makesChanges` says that a
  resolution is a sequence of them, from schemas inside the one that is resolved. What every change
  preserves is proved of a single change and holds after any number of them.

  `Catalog.Grows` says for which class something is added, but not where its members come from.
-/

namespace ThingTypes

/-! ## Members -/

/-- Members under these keys, each named after its key. -/
def keyed (keys : List String) : List (String × String) :=
  keys.map fun key => (key, Identifier.propertyName key)

def FieldDecl.member (field : FieldDecl) : String × String := (field.jsonName, field.name)

/-- The schema declares the values of the enum. -/
def EnumContent.IsDeclaredBy (digest : Digest) (node : SchemaNode) (content : EnumContent) : Prop :=
  ∃ values path, node.enumValues? = some values ∧
    ((∃ kind, node.kind = .scalar kind ∧ ofScalars digest kind values path = .ok content) ∨
      ∃ shape, node.kind = .object shape ∧
        ofRecords digest shape.properties values path = .ok content)

/-- The fields are those of an object among the schemas. -/
def FieldsFrom (known : SchemaNode → Prop) (fields : List FieldDecl) : Prop :=
  ∃ info shape, known (.mk info (.object shape)) ∧
    fields.map FieldDecl.member = keyed (shape.properties.map Prod.fst)

/-- The enum is declared by one of the schemas. -/
def EnumDecl.IsFrom (digest : Digest) (known : SchemaNode → Prop) (e : EnumDecl) : Prop :=
  ∃ node name info content package owner?, known node ∧ content.IsDeclaredBy digest node ∧
    e = Resolution.enumDecl name info content package owner?

namespace Catalog

open Resolution

/-- A step by which the catalog changes, with all schemas among those that are known. -/
inductive Change (digest : Digest) (known : SchemaNode → Prop) (c : Catalog) : Catalog → Prop
  | newClass {type : TypeName} (node : SchemaNode) (kind : ClassKind) (role : Role) :
    type.owner? = none → type.IsPlain → c.IsFree type.key →
    Change digest known c
      (c.addClass (.ofSchema type (node.fingerprint digest) kind role node.info))
  | newAlias {a : AliasDecl} : a.typeName.IsPlain → a.target.IsPlain →
    a.fingerprint = .ofMembers digest (aliasMembers a.target) → c.IsFree a.key →
    Change digest known c (c.addAlias a)
  | setFields (key : TypeKey) {fields : List FieldDecl} : FieldsFrom known fields →
    Change digest known c (c.modifyClass key (·.withFields fields))
  | setOthers (key : TypeKey) {f : ClassDecl → ClassDecl} :
    (∀ d, ∃ variants mapValue? sealedParents,
      f d = { d with variants, mapValue?, sealedParents }) →
    Change digest known c (c.modifyClass key f)
  | newEnum {type : TypeName} {node : SchemaNode} (info : SchemaInfo) {content : EnumContent} :
    known node → content.IsDeclaredBy digest node → type.IsPlain →
    c.classes.table.get? type.key = none → c.enums.table.get? type.key = none →
    Change digest known c (c.addEnum (enumDecl type.name info content type.package none))
  | nestEnum {owner : TypeName} (name : String) {node : SchemaNode} (info : SchemaInfo)
    {content : EnumContent} :
    known node → content.IsDeclaredBy digest node → c.HoldsClass owner →
    Change digest known c
      (c.nest owner.key (enumDecl name info content owner.package (some owner.name)))
  | hold {type : TypeName} (fingerprint : Fingerprint) : type.IsPlain → c.IsFree type.key →
    Change digest known c (c.holdName type.key fingerprint)

/-- Any number of changes. -/
abbrev Changes (digest : Digest) (known : SchemaNode → Prop) : Catalog → Catalog → Prop :=
  Relation.ReflTransGen (Change digest known)

variable {digest : Digest} {known : SchemaNode → Prop} {c c' : Catalog}

/-- What every change preserves is preserved by all of them. -/
theorem Changes.preserves {I : Catalog → Prop} (hI : ∀ c c', Change digest known c c' → I c → I c')
    (h : Changes digest known c c') (hc : I c) : I c' := by
  induction h with
  | refl => exact hc
  | tail _ hchange ih => exact hI _ _ hchange ih

/-! ## What every change preserves -/

theorem Change.holdsClass {type : TypeName} (h : Change digest known c c')
    (hheld : c.HoldsClass type) : c'.HoldsClass type := by
  obtain ⟨howner, hclass⟩ := hheld
  refine ⟨howner, ?_⟩
  cases h with
  | newClass =>
    rw [class?_addClass]
    split
    · exact nofun
    · exact hclass
  | newAlias => exact hclass
  | setFields => simpa [class?_modifyClass] using hclass
  | setOthers => simpa [class?_modifyClass] using hclass
  | newEnum => exact hclass
  | nestEnum => simpa [class?_nest] using hclass
  | hold => exact hclass

theorem Change.named (h : Change digest known c c') (hc : c.Named) : c'.Named := by
  cases h with
  | newClass node kind role _ _ hfree => exact hc.addClass hfree
  | newAlias _ _ _ hfree => exact hc.addAlias hfree
  | setFields => exact hc.modifyClass fun _ => ⟨rfl, rfl⟩
  | setOthers key hf =>
    refine hc.modifyClass fun d => ?_
    obtain ⟨_, _, _, h⟩ := hf d
    rw [h]
    exact ⟨rfl, rfl⟩
  | newEnum info _ _ _ hclass _ => exact hc.addEnum rfl hclass
  | nestEnum => exact hc.nest _
  | hold fingerprint _ hfree => exact hc.holdName hfree fingerprint

theorem Change.retains (h : Change digest known c c') (hc : c.Named) : c.Retains c' := by
  cases h with
  | newClass node kind role _ _ hfree => exact .addClass (hc.class?_of_free hfree.1)
  | newAlias => exact .addAlias _
  | setFields => exact .modifyClass fun _ _ => id
  | setOthers key hf =>
    refine .modifyClass fun d name hname => ?_
    obtain ⟨_, _, _, h⟩ := hf d
    rw [h]
    exact hname
  | newEnum => exact .addEnum _
  | nestEnum => exact .nest _ _
  | hold fingerprint => exact .holdName fingerprint

/-- A name that is held goes on to hold the same structure. -/
theorem Change.table_kept {key : TypeKey} {fingerprint : Fingerprint}
    (h : Change digest known c c') (hheld : c.classes.table.get? key = some fingerprint) :
    c'.classes.table.get? key = some fingerprint := by
  have hne {k : TypeKey} (hfree : c.IsFree k) : key ≠ k := by
    rintro rfl
    rw [hfree.1] at hheld
    cases hheld
  cases h with
  | newClass node kind role _ _ hfree =>
    exact (table_addClass ..).trans ((if_neg (hne hfree)).trans hheld)
  | newAlias _ _ _ hfree => rw [table_addAlias, if_neg (hne hfree), hheld]
  | setFields => exact hheld
  | setOthers => exact hheld
  | newEnum => exact hheld
  | nestEnum => exact hheld
  | hold fingerprint _ hfree => rw [table_holdName, if_neg (hne hfree), hheld]

/-- A top-level enum stays as it is. -/
theorem Change.separate_kept {key : TypeKey} {e : EnumDecl} (h : Change digest known c c')
    (hc : c.Named) (he : c.enums.separate? key = some e) : c'.enums.separate? key = some e := by
  cases h with
  | newEnum info _ _ _ _ hfree =>
    rw [separate?_addEnum, if_neg, he]
    rintro rfl
    exact (hc.enum_held he).2.2 hfree
  | newClass => exact he
  | newAlias => exact he
  | setFields => exact he
  | setOthers => exact he
  | nestEnum => exact he
  | hold => exact he

theorem Changes.holdsClass {type : TypeName} (h : Changes digest known c c')
    (hheld : c.HoldsClass type) : c'.HoldsClass type :=
  h.preserves (fun _ _ h => h.holdsClass) hheld

theorem Changes.named (h : Changes digest known c c') (hc : c.Named) : c'.Named :=
  h.preserves (fun _ _ h => h.named) hc

theorem Changes.retains (h : Changes digest known c c') (hc : c.Named) : c.Retains c' :=
  (h.preserves (I := fun c' => c'.Named ∧ c.Retains c')
    (fun _ _ h hc => ⟨h.named hc.1, hc.2.trans (h.retains hc.1)⟩) ⟨hc, .refl c⟩).2

theorem Changes.table_kept {key : TypeKey} {fingerprint : Fingerprint}
    (h : Changes digest known c c') (hheld : c.classes.table.get? key = some fingerprint) :
    c'.classes.table.get? key = some fingerprint :=
  h.preserves (I := fun c => c.classes.table.get? key = some fingerprint)
    (fun _ _ h => h.table_kept) hheld

theorem Changes.separate_kept {key : TypeKey} {e : EnumDecl} (h : Changes digest known c c')
    (hc : c.Named) (he : c.enums.separate? key = some e) : c'.enums.separate? key = some e :=
  (h.preserves (I := fun c => c.Named ∧ c.enums.separate? key = some e)
    (fun _ _ h hc => ⟨h.named hc.1, h.separate_kept hc.1 hc.2⟩) ⟨hc, he⟩).2

/-! ## Where declarations come from -/

/-- What the names and members of a catalog come from: names are plain, fingerprints are those of
schemas and alias targets, and fields and enums are those of schemas that are known. -/
structure Sourced (digest : Digest) (known : SchemaNode → Prop) (c : Catalog) : Prop extends
    Named c, Labelled digest c where
  name_isName : ∀ {k}, c.classes.table.get? k ≠ none → IsName k.name
  enum_isName : ∀ {k}, c.enums.separate? k ≠ none → IsName k.name
  target_plain : ∀ {k a}, c.classes.alias? k = some a → a.target.IsPlain
  fields_from : ∀ {k d}, c.classes.class? k = some d → d.fields = [] ∨ FieldsFrom known d.fields
  nested_from : ∀ {k d}, c.classes.class? k = some d →
    ∀ e ∈ d.nestedEnums, e.IsFrom digest known
  separate_from : ∀ {k e}, c.enums.separate? k = some e → e.IsFrom digest known

theorem sourced_empty : Sourced digest known {} :=
  { consistent_empty.toNamed, labelled_empty digest with
    name_isName := fun h => absurd rfl h
    enum_isName := fun h => absurd rfl h
    target_plain := nofun
    fields_from := nofun
    nested_from := nofun
    separate_from := nofun }

/-- A class is changed in its members only, and those are from known schemas again. -/
theorem Sourced.modifyClass (hc : Sourced digest known c) {key : TypeKey}
    {f : ClassDecl → ClassDecl}
    (hf : ∀ d, (f d).key = d.key ∧ (f d).fingerprint = d.fingerprint)
    (hfields : ∀ d, (f d).fields = d.fields ∨ FieldsFrom known (f d).fields)
    (hnested : ∀ d, ∀ e ∈ (f d).nestedEnums, e ∈ d.nestedEnums ∨ e.IsFrom digest known) :
    Sourced digest known (c.modifyClass key f) :=
  { hc.toNamed.modifyClass hf, hc.toLabelled.modifyClass fun d => (hf d).2 with
    name_isName := hc.name_isName
    enum_isName := hc.enum_isName
    target_plain := hc.target_plain
    separate_from := hc.separate_from
    fields_from := fun {k d} h => by
      rw [class?_modifyClass, Option.map_eq_some_iff] at h
      obtain ⟨d, hd, rfl⟩ := h
      split
      · rcases hfields d with h | h
        · rw [h]
          exact hc.fields_from hd
        · exact .inr h
      · exact hc.fields_from hd
    nested_from := fun {k d} h e he => by
      rw [class?_modifyClass, Option.map_eq_some_iff] at h
      obtain ⟨d, hd, rfl⟩ := h
      split at he
      · exact (hnested d e he).elim (hc.nested_from hd e) id
      · exact hc.nested_from hd e he }

theorem Sourced.addClass (hc : Sourced digest known c) {type : TypeName} (node : SchemaNode)
    (kind : ClassKind) (role : Role) (hplain : IsName type.name) (hfree : c.IsFree type.key) :
    Sourced digest known
      (c.addClass (.ofSchema type (node.fingerprint digest) kind role node.info)) := by
  refine { hc with
    toNamed := hc.toNamed.addClass hfree, class_label := ?_, name_isName := ?_, fields_from := ?_,
    nested_from := ?_ }
  · intro k d h
    rw [class?_addClass] at h
    split at h
    · cases h
      exact ⟨node, rfl⟩
    · exact hc.class_label h
  · intro k h
    rw [table_addClass] at h
    split at h
    · rename_i hk
      rw [hk]
      exact hplain
    · exact hc.name_isName h
  · intro k d h
    rw [class?_addClass] at h
    split at h
    · cases h
      exact .inl rfl
    · exact hc.fields_from h
  · intro k d h e he
    rw [class?_addClass] at h
    split at h
    · cases h
      cases he
    · exact hc.nested_from h e he

theorem Sourced.addAlias (hc : Sourced digest known c) {a : AliasDecl} (hplain : IsName a.name)
    (htarget : a.target.IsPlain)
    (hlabel : a.fingerprint = .ofMembers digest (aliasMembers a.target)) (hfree : c.IsFree a.key) :
    Sourced digest known (c.addAlias a) := by
  refine { hc with
    toNamed := hc.toNamed.addAlias hfree, alias_label := ?_, name_isName := ?_, target_plain := ?_ }
  · intro k a' h
    rw [alias?_addAlias] at h
    split at h
    · cases h
      exact hlabel
    · exact hc.alias_label h
  · intro k h
    rw [table_addAlias] at h
    split at h
    · rename_i hk
      rw [hk]
      exact hplain
    · exact hc.name_isName h
  · intro k a' h
    rw [alias?_addAlias] at h
    split at h
    · cases h
      exact htarget
    · exact hc.target_plain h

theorem Sourced.addEnum (hc : Sourced digest known c) {e : EnumDecl} (hplain : IsName e.name)
    (hfrom : e.IsFrom digest known) (htop : e.owner? = none)
    (hclass : c.classes.table.get? e.key = none) : Sourced digest known (c.addEnum e) := by
  refine { hc with
    toNamed := hc.toNamed.addEnum htop hclass, enum_isName := ?_, separate_from := ?_ }
  · intro k h
    rw [separate?_addEnum] at h
    split at h
    · rename_i hk
      rw [hk]
      exact hplain
    · exact hc.enum_isName h
  · intro k e' h
    rw [separate?_addEnum] at h
    split at h
    · cases h
      exact hfrom
    · exact hc.separate_from h

theorem Sourced.nest (hc : Sourced digest known c) (key : TypeKey) {e : EnumDecl}
    (hfrom : e.IsFrom digest known) : Sourced digest known (c.nest key e) := by
  have h : Sourced digest known (c.modifyClass key (·.nestEnum e)) := by
    refine hc.modifyClass (fun _ => ⟨rfl, rfl⟩) (fun _ => .inl rfl) fun d e' he' => ?_
    rcases mem_nestEnum he' with rfl | hold
    · exact .inr hfrom
    · exact .inl hold
  exact { h with toNamed := hc.toNamed.nest e }

theorem Sourced.holdName (hc : Sourced digest known c) {key : TypeKey} (fingerprint : Fingerprint)
    (hplain : IsName key.name) (hfree : c.IsFree key) :
    Sourced digest known (c.holdName key fingerprint) := by
  refine { hc with
    toNamed := hc.toNamed.holdName hfree fingerprint, name_isName := fun {k} h => ?_ }
  rw [table_holdName] at h
  split at h
  · rename_i hk
    rw [hk]
    exact hplain
  · exact hc.name_isName h

theorem Change.sourced (h : Change digest known c c') (hc : Sourced digest known c) :
    Sourced digest known c' := by
  cases h with
  | newClass node kind role _ hplain hfree => exact hc.addClass node kind role hplain.name hfree
  | newAlias hplain htarget hlabel hfree => exact hc.addAlias hplain.name htarget hlabel hfree
  | setFields key hfields =>
    exact hc.modifyClass (fun _ => ⟨rfl, rfl⟩) (fun _ => .inr hfields) fun _ _ he => .inl he
  | setOthers key hf =>
    refine hc.modifyClass (fun d => ?_) (fun d => ?_) fun d e he => ?_
    all_goals obtain ⟨_, _, _, h⟩ := hf d
    · rw [h]
      exact ⟨rfl, rfl⟩
    · rw [h]
      exact .inl rfl
    · rw [h] at he
      exact .inl he
  | newEnum info hnode hcontent hplain hclass _ =>
    exact hc.addEnum hplain.name ⟨_, _, _, _, _, _, hnode, hcontent, rfl⟩ rfl hclass
  | nestEnum name info hnode hcontent _ =>
    exact hc.nest _ ⟨_, _, _, _, _, _, hnode, hcontent, rfl⟩
  | hold fingerprint hplain hfree => exact hc.holdName fingerprint hplain.name hfree

theorem Changes.sourced (h : Changes digest known c c') (hc : Sourced digest known c) :
    Sourced digest known c' :=
  h.preserves (fun _ _ h => h.sourced) hc

/-! ## Names of enums -/

/-- A class of the package nests an enum of this name. -/
def NestsNamed (c : Catalog) (key : TypeKey) : Prop :=
  ∃ owner : TypeKey, owner.package = key.package ∧ c.HoldsNested owner key.name

theorem NestsNamed.retained {key : TypeKey} (h : c.NestsNamed key) (hkept : c.Retains c') :
    c'.NestsNamed key := by
  obtain ⟨owner, hpackage, d, hd, hname⟩ := h
  obtain ⟨d', hd', hnested⟩ := hkept.classes hd
  exact ⟨owner, hpackage, d', hd', hnested _ hname⟩

/-- Every name in the table of enums is accounted for: a top-level enum has it, with these values,
or a nested enum has taken it over. -/
def EnumsAccounted (c : Catalog) : Prop :=
  ∀ {k f}, c.enums.table.get? k = some f →
    (∃ e, c.enums.separate? k = some e ∧ e.fingerprint = f) ∨ c.NestsNamed k

theorem enumsAccounted_empty : EnumsAccounted {} := nofun

theorem Change.enumsAccounted (h : Change digest known c c') (hc : c.Named)
    (haccounted : c.EnumsAccounted) : c'.EnumsAccounted := by
  have hkept := h.retains hc
  have hold {k : TypeKey} {f : Fingerprint} (hf : c.enums.table.get? k = some f) :
      (∃ e, c'.enums.separate? k = some e ∧ e.fingerprint = f) ∨ c'.NestsNamed k := by
    rcases haccounted hf with ⟨e, he, hfingerprint⟩ | hnested
    · exact .inl ⟨e, h.separate_kept hc he, hfingerprint⟩
    · exact .inr (hnested.retained hkept)
  intro k f hf
  cases h with
  | newEnum info _ _ _ _ _ =>
    rw [enumTable_addEnum] at hf
    split at hf
    · rename_i hk
      cases hf
      exact .inl ⟨_, (separate?_addEnum ..).trans (if_pos hk), rfl⟩
    · exact hold hf
  | @nestEnum owner name _ info content _ _ howner =>
    rw [enumTable_nest] at hf
    split at hf
    · rename_i hk
      obtain ⟨d, hd⟩ := Option.ne_none_iff_exists'.mp howner.2
      have hclass : (c.nest owner.key (enumDecl name info content owner.package
          (some owner.name))).classes.class? owner.key = some (d.nestEnum (enumDecl name info
            content owner.package (some owner.name))) := by
        rw [class?_nest, hd, Option.map_some, if_pos rfl]
      refine .inr ⟨owner.key, hk ▸ rfl, _, hclass, ?_⟩
      rw [ClassDecl.nestedEnum?_nestEnum, if_pos (hk ▸ rfl)]
      exact Option.some_ne_none _
    · exact hold hf
  | newClass => exact hold hf
  | newAlias => exact hold hf
  | setFields => exact hold hf
  | setOthers => exact hold hf
  | hold => exact hold hf

theorem Changes.enumsAccounted (h : Changes digest known c c') (hc : c.Named)
    (haccounted : c.EnumsAccounted) : c'.EnumsAccounted :=
  (h.preserves (I := fun c => c.Named ∧ c.EnumsAccounted)
    (fun _ _ h hc => ⟨h.named hc.1, h.enumsAccounted hc.1 hc.2⟩) ⟨hc, haccounted⟩).2

end Catalog

/-! ## Resolutions -/

namespace Resolution

open Catalog

/-- Schemas inside a known one are known. -/
def ClosedUnderChildren (known : SchemaNode → Prop) : Prop :=
  ∀ node, known node → ∀ child ∈ node.children, known child

variable {known : SchemaNode → Prop} {s : ResolutionSettings} {site : Site} {c : Catalog}
  {outer name : String} {parent : TypeName}

theorem Open.changed {c' : Catalog} {digest : Digest} (h : Open outer site c)
    (hchanges : Changes digest known c c') : Open outer site c' :=
  ⟨h.beneath, fun parent hmem => hchanges.holdsClass (h.held parent hmem)⟩

/-! ### Enums and aliases -/

theorem declareEnum_changes (hopen : Open outer site c) {hint? : Option String} {info : SchemaInfo}
    {content : EnumContent} {node : SchemaNode} {placement : EnumPlacement} (hnode : known node)
    (hcontent : content.IsDeclaredBy s.digest node) :
    Outcome (declareEnum s hint? info content site placement) c
      (fun type c' => type.IsPlain ∧ Changes s.digest known c c') fun _ => True := by
  have hfound {name found : String} (hname : hintedName? hint? info.title? = some name)
      (hfound : separateEnumName s c name content.fingerprint site = .ok found) :
      TypeName.IsPlain { package := site.package, name := found } :=
    ⟨hopen.beneath.package,
      hopen.beneath.isName_separateEnumName (isName_of_hintedName? hname) hfound, nofun⟩
  refine declareEnum_outcome trivial ?_ ?_ ?_
  · intro name owner hname _ hparent
    have howner := hopen.beneath.parent owner hparent
    refine ⟨⟨howner.package, isName_of_hintedName? hname, ?_⟩,
      .single (.nestEnum name info hnode hcontent (hopen.held owner hparent))⟩
    rintro _ ⟨⟩
    exact howner.name.plain
  · intro name found hname _ hname' henum
    have hplain := hfound hname hname'
    have hfree := separateEnumName_free hname'
    exact ⟨hplain, .single (.newEnum info hnode hcontent hplain hfree henum)⟩
  · exact fun name found hname _ hname' _ => ⟨hfound hname hname', .refl⟩

theorem declareAlias_changes (hopen : Open outer site c) {target : TypeRef}
    (htarget : target.IsPlain) :
    Outcome (declareAlias s name target parent site) c
      (fun type c' => type.IsPlain ∧ Changes s.digest known c c') fun _ => True := by
  refine declareAlias_outcome trivial ?_ ?_
  · exact fun type hoffers _ => ⟨hopen.beneath.isPlain_of_offers hoffers, .refl⟩
  · intro type hoffers hfree
    have hplain := hopen.beneath.isPlain_of_offers hoffers
    exact ⟨hplain, .single (.newAlias ⟨hplain.package, hplain.name, nofun⟩ htarget rfl hfree)⟩

theorem joinVariant_changes (hopen : Open outer site c) {type : TypeRef} (htype : type.IsPlain) :
    Outcome (joinVariant s parent name type site) c
      (fun _ c' => Changes s.digest known c c') fun _ => True := by
  refine joinVariant_outcome (fun variant _ => .single (.setOthers _ fun d => ?_)) fun _ =>
    (declareAlias_changes hopen htype).imp fun _ _ h => h.2
  obtain ⟨parents, h, _⟩ := d.addSealedParent_eq parent
  exact ⟨d.variants, d.mapValue?, parents, h⟩

theorem aliasVariants_changes (members : List (String × ScalarKind)) :
    ∀ {index c}, Open outer site c →
      Outcome (aliasVariants s parent site index members) c
        (fun _ c' => Changes s.digest known c c') fun _ => True := by
  induction members with
  | nil => exact fun _ => .pure .refl
  | cons member rest ih =>
    intro index c hopen
    have htarget : (TypeRef.primitive member.2).IsPlain := nofun
    have halias : Outcome (declareAlias s member.1 (.primitive member.2) parent
        (site.child (toString index))) c
        (fun type c' => type.IsPlain ∧ Changes s.digest known c c') fun _ => True :=
      declareAlias_changes (hopen.child _) htarget
    refine aliasVariants_cons_outcome (halias.imp ?_)
    rintro type c' ⟨_, hchanges⟩
    exact (ih (hopen.changed hchanges)).imp fun _ _ h => hchanges.trans h

/-! ### Schemas -/

/-- Resolving the schema makes changes from known schemas only, and answers with plain names. -/
structure MakesChanges (s : ResolutionSettings) (known : SchemaNode → Prop) (outer : String)
    (node : SchemaNode) : Prop where
  ofType : ∀ hint? site {c}, Open outer site c →
    Outcome (typeAt s hint? node site) c
      (fun type c' => type.IsPlain ∧ Changes s.digest known c c') fun _ => True
  ofClass : ∀ name site {c}, Open outer site c →
    Outcome (classAt s name node site) c
      (fun type c' => type.IsPlain ∧ Changes s.digest known c c') fun _ => True

theorem fieldsAt_changes {properties : List (String × SchemaNode)} {required : List String}
    (h : ∀ property ∈ properties, MakesChanges s known outer property.2) :
    ∀ {c}, Open outer site c →
      Outcome (fieldsAt s required properties site) c
        (fun fields c' => fields.map FieldDecl.member = keyed (properties.map Prod.fst) ∧
          Changes s.digest known c c') fun _ => True := by
  induction properties with
  | nil => exact fun _ => .pure ⟨rfl, .refl⟩
  | cons property rest ih =>
    intro c hopen
    refine fieldsAt_cons_outcome (((h property List.mem_cons_self).ofType (some property.1)
      (site.child property.1) (hopen.child _)).imp ?_)
    rintro type c' ⟨_, hchanges⟩
    refine (ih (fun property hmem => h property (List.mem_cons_of_mem _ hmem))
      (hopen.changed hchanges)).imp ?_
    rintro fields c'' ⟨hfields, hchanges'⟩
    refine ⟨?_, hchanges.trans hchanges'⟩
    rw [List.map_cons, hfields]
    rfl

theorem variantsFrom_changes {alternatives : List SchemaNode}
    (h : ∀ node ∈ alternatives, MakesChanges s known outer node) :
    ∀ index {c}, Open outer site c →
      Outcome (variantsFrom s parent alternatives index site) c
        (fun _ c' => Changes s.digest known c c') fun _ => True := by
  induction alternatives with
  | nil =>
    intro index c _
    rw [variantsFrom]
    exact .pure .refl
  | cons node rest ih =>
    intro index c hopen
    have hnode := h node List.mem_cons_self
    refine variantsFrom_cons_outcome
      (R := fun type c' => type.IsPlain ∧ Changes s.digest known c c') ?_ ?_ ?_
    · intro _
      refine (hnode.ofClass _ _ (hopen.child _)).imp fun type c' hclass => ⟨?_, hclass.2⟩
      rintro _ ⟨⟩
      exact hclass.1
    · exact fun _ => hnode.ofType _ _ (hopen.child _)
    · rintro type c₁ ⟨hplain, hchanges⟩
      have hopen₁ := hopen.changed hchanges
      have hvariant : Outcome (joinVariant s parent (variantName parent index node) type
          (site.child (toString index))) c₁ (fun _ c' => Changes s.digest known c₁ c')
          fun _ => True := joinVariant_changes (hopen₁.child _) hplain
      refine hvariant.imp fun variant c₂ hjoin => ?_
      refine (ih (fun node hmem => h node (List.mem_cons_of_mem _ hmem)) (index + 1)
        (hopen₁.changed hjoin)).imp fun variants c₃ hrest => ?_
      exact (hchanges.trans hjoin).trans hrest

theorem sealedVariants_changes {alternatives : List SchemaNode}
    (h : ∀ node ∈ alternatives, MakesChanges s known outer node) (hopen : Open outer site c) :
    Outcome (sealedVariants s alternatives parent site) c
      (fun _ c' => Changes s.digest known c c') fun _ => True := by
  unfold sealedVariants
  split
  · exact aliasVariants_changes _ hopen
  · exact variantsFrom_changes h 0 hopen

theorem classOf_changes {info : SchemaInfo} {shape : ObjectSchema}
    (hknown : known (.mk info (.object shape)))
    (hproperties : ∀ property ∈ shape.properties, MakesChanges s known outer property.2)
    (halternatives : ∀ alternatives, shape.oneOf? = some alternatives →
      ∀ node ∈ alternatives, MakesChanges s known outer node)
    (hvalues : ∀ values, shape.mapValues? = some values →
      MakesChanges s known outer values.schema) (hopen : Open outer site c) :
    Outcome (classOf s name info shape (partsOf s shape) site) c
      (fun type c' => type.IsPlain ∧ Changes s.digest known c c') fun _ => True := by
  -- The class is declared without members, and what stands inside it is resolved.
  have hframe (kind : ClassKind) (type : TypeName) (hoffers : Offers s site name type)
      (hfree : c.IsFree type.key) :
      type.IsPlain ∧
        Changes s.digest known c (c.addClass (classFrame s info shape site kind type)) ∧
        Open outer (site.inside type) (c.addClass (classFrame s info shape site kind type)) := by
    have hplain := hopen.beneath.isPlain_of_offers hoffers
    have hchange : Changes s.digest known c
        (c.addClass (classFrame s info shape site kind type)) :=
      .single (.newClass _ kind _ hoffers.topLevel.2 hplain hfree)
    have hheld : (c.addClass (classFrame s info shape site kind type)).HoldsClass type :=
      ⟨hoffers.topLevel.2, ne_of_eq_of_ne (class?_addClass_self c _) nofun⟩
    exact ⟨hplain, hchange, (hopen.changed hchange).inside hplain hheld⟩
  refine classOf_outcome trivial ?_ ?_ ?_ ?_
  · exact fun type _ hoffers _ => ⟨hopen.beneath.isPlain_of_offers hoffers, .refl⟩
  · intro type alternatives _ honeOf hoffers hfree
    obtain ⟨hplain, hchange, hopen₁⟩ := hframe .sealed type hoffers hfree
    refine (sealedVariants_changes (halternatives alternatives honeOf) (hopen₁.child _)).imp ?_
    intro variants c' hchanges
    refine ⟨hplain, (hchange.trans hchanges).tail (.setOthers _ fun d => ?_)⟩
    exact ⟨variants, d.mapValue?, d.sealedParents, rfl⟩
  · intro type values _ _ hmapValues hoffers hfree
    obtain ⟨hplain, hchange, hopen₁⟩ := hframe .mapWrapper type hoffers hfree
    refine ((hvalues values hmapValues).ofType _ _ (hopen₁.child _)).imp ?_
    rintro value c' ⟨_, hchanges⟩
    refine ⟨hplain, (hchange.trans hchanges).tail (.setOthers _ fun d => ?_)⟩
    exact ⟨d.variants, some value, d.sealedParents, rfl⟩
  · intro type _ _ _ hoffers hfree
    obtain ⟨hplain, hchange, hopen₁⟩ := hframe .plain type hoffers hfree
    refine (fieldsAt_changes hproperties hopen₁).imp ?_
    rintro fields c' ⟨hfields, hchanges⟩
    exact ⟨hplain, (hchange.trans hchanges).tail (.setFields _ ⟨info, shape, hknown, hfields⟩)⟩

theorem makesChanges (hclosed : ClosedUnderChildren known) (node : SchemaNode)
    (hknown : known node) : MakesChanges s known outer node := by
  induction node using SchemaNode.byChildren with
  | scalar info kind =>
    refine ⟨fun hint? site c hopen => ?_,
      fun _ _ _ _ => classAt_outcome_of_not_object rfl trivial⟩
    refine typeAt_scalar_outcome trivial (fun _ => ⟨nofun, .refl⟩) ?_
    intro values content hvalues hcontent
    refine (declareEnum_changes hopen hknown
      ⟨values, _, hvalues, .inl ⟨kind, rfl, hcontent⟩⟩).imp fun type c' henum => ⟨?_, henum.2⟩
    rintro _ ⟨⟩
    exact henum.1
  | null info =>
    exact ⟨fun _ _ _ _ => typeAt_null_outcome trivial ⟨nofun, .refl⟩,
      fun _ _ _ _ => classAt_outcome_of_not_object rfl trivial⟩
  | array info items ih =>
    have hitems := ih (hclosed _ hknown items (SchemaNode.mem_children_array.mpr rfl))
    exact ⟨fun hint? site c hopen => typeAt_array_outcome trivial
        ((hitems.ofType _ _ (hopen.child _)).imp fun _ _ h => h),
      fun _ _ _ _ => classAt_outcome_of_not_object rfl trivial⟩
  | object info shape hproperties halternatives hvalues =>
    have hproperties' : ∀ property ∈ shape.properties, MakesChanges s known outer property.2 :=
      fun property hmem => hproperties property hmem <|
        hclosed _ hknown _ (SchemaNode.mem_children_of_property hmem)
    have halternatives' : ∀ alternatives, shape.oneOf? = some alternatives →
        ∀ node ∈ alternatives, MakesChanges s known outer node :=
      fun alternatives honeOf node hmem => halternatives alternatives honeOf node hmem <|
        hclosed _ hknown _ (SchemaNode.mem_children_of_alternative honeOf hmem)
    have hvalues' : ∀ values, shape.mapValues? = some values →
        MakesChanges s known outer values.schema :=
      fun values hmap => hvalues values hmap <|
        hclosed _ hknown _ (SchemaNode.mem_children_of_mapValues hmap)
    constructor
    · intro hint? site c hopen
      refine typeAt_object_outcome trivial ?_ ?_ ?_
      · intro values content hvalues hcontent
        refine (declareEnum_changes hopen hknown
          ⟨values, _, hvalues, .inr ⟨shape, rfl, hcontent⟩⟩).imp
            fun type c' henum => ⟨?_, henum.2⟩
        rintro _ ⟨⟩
        exact henum.1
      · exact fun values _ _ hmap =>
          ((hvalues' values hmap).ofType _ _ (hopen.child _)).imp fun _ _ h => h
      · intro name _ _ _
        refine (classOf_changes hknown hproperties' halternatives' hvalues' hopen).imp
          fun type c' hclass => ⟨?_, hclass.2⟩
        rintro _ ⟨⟩
        exact hclass.1
    · exact fun _ _ _ hopen => classAt_object_outcome trivial
        (classOf_changes hknown hproperties' halternatives' hvalues' hopen)

end Resolution

end ThingTypes
