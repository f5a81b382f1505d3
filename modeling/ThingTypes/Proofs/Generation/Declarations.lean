import ThingTypes.Kotlin.Printer
import ThingTypes.Proofs.Generation.Assembled
import ThingTypes.Proofs.Generation.DigestedTexts
import ThingTypes.Proofs.Kotlin.FilePaths
import ThingTypes.Proofs.Kotlin.SourceLines

/-
  The names of the declarations in the files of a model. The catalog keeps classes, aliases and
  enums apart, and their fingerprints keep them apart from interfaces of actions. Two interfaces of
  the same actions may share a name, though, and so may a builder and a type that is called like it;
  these are the only ways in which a name is declared twice. A file is named for the type that it
  declares; a builder stands in the file of its class, on a line of its own.
-/

namespace ThingTypes

open Catalog

namespace Kotlin

/-- The name of the builder that is declared in the file of a class. -/
def builderName? (style : Style) (d : ClassDecl) : Option String :=
  if style.builders ∧ d.kind = .data then some (d.name ++ "Builder") else none

theorem eq_of_builderName? {style : Style} {d : ClassDecl} {name : String}
    (h : builderName? style d = some name) : name = d.name ++ "Builder" := by
  unfold builderName? at h
  split at h <;> cases h
  rfl

/-- The line that opens a class with a body. -/
def classLine (name : String) : Line := ⟨0, "class " ++ name ++ " \x7b"⟩

theorem builder_mem_lines {style : Style} {d : ClassDecl} {name : String}
    (h : builderName? style d = some name) : classLine name ∈ (classBody style d).lines := by
  unfold builderName? at h
  split at h
  · rename_i hbuilder
    cases h
    obtain ⟨hstyle, hkind⟩ := hbuilder
    simp [classBody, hkind, hstyle, builderDeclaration, classLine, Fragment.lines_append,
      Fragment.lines_line]
  · cases h

end Kotlin

/-- A line of the file opens the class. -/
def SourceFile.OpensClass (f : SourceFile) (name : String) : Prop :=
  ("\n" ++ (Kotlin.classLine name).text).toList <:+: f.contents.toList

/-- The file of a class opens its builder. -/
theorem Kotlin.classFile_opensClass {style : Style} {d : ClassDecl} {name : String}
    (h : builderName? style d = some name) : (classFile style d).OpensClass name := by
  have hmem : classLine name ∈
      (Fragment.importing (serializable :: typeImports d.package d.sealedParents)
        ++ docComment 0 (d.description?.or d.title?) ++ deprecation 0 d.deprecated
        ++ classBody style d).lines := by
    rw [Fragment.lines_append]
    exact List.mem_append_right _ (builder_mem_lines h)
  have htext : (classLine name).text.toList = ("class " ++ name ++ " ").toList ++ ['\x7b'] := by
    simp [classLine]
  exact line_infix style.profile d.package d.name hmem (by rw [htext, List.getLast?_concat])
    (by decide)

namespace GeneratedModel

/-- The names of the builders that are declared along with the classes. -/
def builderKeys (model : GeneratedModel) (style : Kotlin.Style) : List TypeKey :=
  model.catalog.classes.classes.values.filterMap fun d =>
    (Kotlin.builderName? style d).map (TypeKey.mk d.package)

/-- The names of all declarations at the top level of the files. -/
def declaredKeys (model : GeneratedModel) (style : Kotlin.Style) : List TypeKey :=
  (model.sourceFiles style).map SourceFile.key ++ model.builderKeys style

namespace Assembled

variable {digest : Digest} {known : SchemaNode → Prop} {model : GeneratedModel} {c : Catalog}
  {d : ClassDecl} (h : model.Assembled digest known c d)
include h

theorem sourced : c.Sourced digest known := h.changes.sourced sourced_empty

theorem named : model.catalog.Named := by
  rw [h.catalog]
  exact h.sourced.toNamed.addClass h.free

/-- An interface has its name for itself, apart from other interfaces. -/
theorem interface_apart (hdigest : Function.Injective digest) {i : ActionInterface}
    (hi : i ∈ model.interfaces) :
    model.catalog.classes.class? i.typeName.key = none ∧
      model.catalog.classes.alias? i.typeName.key = none ∧
      model.catalog.enums.separate? i.typeName.key = none := by
  have hstands := h.interfaces i hi
  obtain ⟨keys, hne, -, hmethods⟩ := hstands.methods
  have hmethodsNe : i.methods ≠ [] := by
    rintro hnil
    have hjsonNames := hmethods.jsonNames
    rw [hnil] at hjsonNames
    exact hne hjsonNames.symm
  have htext := Assembly.isInterfaceText_of_methods hmethodsNe hmethods.plain
  have hheld := hstands.held
  have hthing : i.typeName.key ≠ d.key := fun hkey => by
    rw [hkey, h.free.1] at hheld
    cases hheld
  rw [h.catalog]
  refine ⟨?_, ?_, ?_⟩
  · rw [class?_addClass, if_neg hthing]
    by_contra hclass
    obtain ⟨d', hd'⟩ := Option.ne_none_iff_exists'.mp hclass
    obtain ⟨node, hnode⟩ := h.sourced.class_label hd'
    rw [(h.sourced.class_held hd').2, hnode] at hheld
    exact node.not_isInterfaceText (hdigest (Option.some.inj hheld) ▸ htext)
  · by_contra halias
    obtain ⟨a, ha⟩ := Option.ne_none_iff_exists'.mp halias
    rw [(h.sourced.alias_held ha).2, h.sourced.alias_label ha] at hheld
    have hplain : Plain ("alias:" ++ a.target.signature) :=
      (by decide : Plain "alias:").append (h.sourced.target_plain ha).plain_signature
    rw [← memberText_aliasMembers] at hplain
    exact hplain.not_isInterfaceText (hdigest (Option.some.inj hheld) ▸ htext)
  · by_contra henum
    rw [h.sourced.enum_apart henum] at hheld
    cases hheld

/-- The files are those of the classes, the aliases, the enums and the interfaces. -/
theorem keys_sourceFiles (style : Kotlin.Style) :
    (model.sourceFiles style).map SourceFile.key =
      model.catalog.classes.classes.keys ++ model.catalog.classes.aliases.keys ++
        model.catalog.enums.separate.keys ++ model.interfaces.map (·.typeName.key) := by
  have hclasses : model.catalog.classes.classes.values.map ClassDecl.key = _ :=
    OrderedMap.map_values_eq_keys fun k d hd => (h.named.class_held hd).1
  have haliases : model.catalog.classes.aliases.values.map AliasDecl.key = _ :=
    OrderedMap.map_values_eq_keys fun k a ha => (h.named.alias_held ha).1
  have henums : model.catalog.enums.separate.values.map EnumDecl.key = _ :=
    OrderedMap.map_values_eq_keys fun k e he => (h.named.enum_held he).1
  rw [← hclasses, ← haliases, ← henums]
  simp only [sourceFiles, Kotlin.catalogFiles, List.map_append, List.map_map]
  rfl

/-- No two files declare one name, unless two interfaces have it. -/
theorem nodup_keys_sourceFiles_iff (hdigest : Function.Injective digest) (style : Kotlin.Style) :
    ((model.sourceFiles style).map SourceFile.key).Nodup ↔
      (model.interfaces.map (·.typeName.key)).Nodup := by
  rw [h.keys_sourceFiles style]
  refine ⟨fun hnodup => (List.nodup_append.mp hnodup).2.1, fun hinterfaces => ?_⟩
  have hinterface {k : TypeKey} (hk : k ∈ model.interfaces.map (·.typeName.key)) :
      model.catalog.classes.class? k = none ∧ model.catalog.classes.alias? k = none ∧
        model.catalog.enums.separate? k = none := by
    obtain ⟨i, hi, rfl⟩ := List.mem_map.mp hk
    exact h.interface_apart hdigest hi
  -- The table of classes and aliases holds no name of an enum.
  have henum {k : TypeKey} (hk : k ∈ model.catalog.enums.separate.keys) :
      model.catalog.classes.class? k = none ∧ model.catalog.classes.alias? k = none := by
    have hfree := h.named.enum_apart ((OrderedMap.mem_keys_iff _ k).mp hk)
    exact ⟨h.named.class?_of_free hfree, h.named.alias?_of_free hfree⟩
  have hclass {k : TypeKey} (hk : k ∈ model.catalog.classes.classes.keys) :
      model.catalog.classes.class? k ≠ none := (OrderedMap.mem_keys_iff _ k).mp hk
  have halias {k : TypeKey} (hk : k ∈ model.catalog.classes.aliases.keys) :
      model.catalog.classes.alias? k ≠ none := (OrderedMap.mem_keys_iff _ k).mp hk
  refine List.nodup_append'.mpr ⟨List.nodup_append'.mpr ⟨List.nodup_append'.mpr
    ⟨OrderedMap.nodup _, OrderedMap.nodup _, ?_⟩, OrderedMap.nodup _, ?_⟩, hinterfaces, ?_⟩
  · exact fun k hk hk' => halias hk' (h.named.apart (hclass hk))
  · intro k hk hk'
    rcases List.mem_append.mp hk with hk | hk
    · exact hclass hk (henum hk').1
    · exact halias hk (henum hk').2
  · intro k hk hk'
    obtain ⟨hnoClass, hnoAlias, hnoEnum⟩ := hinterface hk'
    rcases List.mem_append.mp hk with hk | hk
    · rcases List.mem_append.mp hk with hk | hk
      · exact hclass hk hnoClass
      · exact halias hk hnoAlias
    · exact (OrderedMap.mem_keys_iff _ k).mp hk hnoEnum

/-- All declarations have names, in valid packages. -/
theorem isName_of_mem_sourceFiles {style : Kotlin.Style} {f : SourceFile}
    (hf : f ∈ model.sourceFiles style) : Package.isValid f.package ∧ IsName f.name := by
  have hnames : ∀ {k : TypeKey}, model.catalog.classes.table.get? k ≠ none →
      Package.isValid k.package ∧ IsName k.name := by
    intro k hk
    rw [h.catalog, table_addClass] at hk
    split at hk
    · rename_i hkey
      exact hkey ▸ ⟨h.package, h.name⟩
    · exact ⟨h.packages (.inl hk), h.sourced.name_isName hk⟩
  have henums : ∀ {k : TypeKey}, model.catalog.enums.separate? k ≠ none →
      Package.isValid k.package ∧ IsName k.name := by
    intro k hk
    rw [h.catalog] at hk
    exact ⟨h.packages (.inr hk), h.sourced.enum_isName hk⟩
  have hkey : f.key ∈ (model.sourceFiles style).map SourceFile.key := List.mem_map_of_mem hf
  change Package.isValid f.key.package ∧ IsName f.key.name
  rw [h.keys_sourceFiles style] at hkey
  generalize f.key = k at hkey ⊢
  simp only [List.mem_append, OrderedMap.mem_keys_iff] at hkey
  rcases hkey with ((hk | hk) | hk) | hk
  · obtain ⟨d, hd⟩ := Option.ne_none_iff_exists'.mp hk
    exact hnames (ne_of_eq_of_ne (h.named.class_held hd).2 (Option.some_ne_none _))
  · obtain ⟨a, ha⟩ := Option.ne_none_iff_exists'.mp hk
    exact hnames (ne_of_eq_of_ne (h.named.alias_held ha).2 (Option.some_ne_none _))
  · exact henums hk
  · obtain ⟨i, hi, rfl⟩ := List.mem_map.mp hk
    have hheld : c.classes.table.get? i.typeName.key ≠ none :=
      ne_of_eq_of_ne (h.interfaces i hi).held (Option.some_ne_none _)
    exact ⟨h.packages (.inl hheld), h.sourced.name_isName hheld⟩

omit h in
theorem extension_of_mem_sourceFiles {style : Kotlin.Style} {f : SourceFile}
    (hf : f ∈ model.sourceFiles style) : f.extension = style.profile.extension := by
  simp only [sourceFiles, Kotlin.catalogFiles, List.mem_append, List.mem_map] at hf
  rcases hf with ((⟨_, -, rfl⟩ | ⟨_, -, rfl⟩) | ⟨_, -, rfl⟩) | ⟨_, -, rfl⟩ <;> rfl

/-- Files have paths of their own when they declare names of their own. -/
theorem nodup_relativePaths_iff (style : Kotlin.Style) :
    ((model.sourceFiles style).map SourceFile.relativePath).Nodup ↔
      ((model.sourceFiles style).map SourceFile.key).Nodup := by
  rw [List.Nodup, List.Nodup, List.pairwise_map, List.pairwise_map]
  refine List.Pairwise.iff_of_mem fun {f g} hf hg => not_congr ⟨fun hpath => ?_, fun hkey => ?_⟩
  · obtain ⟨hpackage, hname⟩ := h.isName_of_mem_sourceFiles hf
    obtain ⟨hpackage', hname'⟩ := h.isName_of_mem_sourceFiles hg
    have hextension : f.extension = g.extension :=
      (extension_of_mem_sourceFiles hf).trans (extension_of_mem_sourceFiles hg).symm
    exact SourceFile.key_eq_of_relativePath_eq hpackage hpackage' hname.plain hname'.plain
      hextension hpath
  · obtain ⟨hpackage, hname⟩ := TypeKey.mk.inj hkey
    rw [SourceFile.relativePath, SourceFile.relativePath, hpackage, hname,
      extension_of_mem_sourceFiles hf, extension_of_mem_sourceFiles hg]

theorem nodup_builderKeys (style : Kotlin.Style) : (model.builderKeys style).Nodup := by
  have hclasses : model.catalog.classes.classes.values.map ClassDecl.key = _ :=
    OrderedMap.map_values_eq_keys fun k d hd => (h.named.class_held hd).1
  have hnodup : (model.catalog.classes.classes.values.map ClassDecl.key).Nodup :=
    hclasses ▸ OrderedMap.nodup _
  rw [List.Nodup, List.pairwise_map] at hnodup
  rw [builderKeys, List.Nodup, List.pairwise_filterMap]
  refine hnodup.imp fun {d d'} hne key hkey key' hkey' hsame => hne ?_
  obtain ⟨name, hname, rfl⟩ := Option.map_eq_some_iff.mp hkey
  obtain ⟨name', hname', rfl⟩ := Option.map_eq_some_iff.mp hkey'
  obtain ⟨hpackage, hsuffix⟩ := TypeKey.mk.inj hsame
  rw [Kotlin.eq_of_builderName? hname, Kotlin.eq_of_builderName? hname',
    String.append_left_inj] at hsuffix
  exact congrArg₂ TypeKey.mk hpackage hsuffix

/-- A name is declared twice by two interfaces, or by a builder and something else, and in no other
way. -/
theorem nodup_declaredKeys_iff (hdigest : Function.Injective digest) (style : Kotlin.Style) :
    (model.declaredKeys style).Nodup ↔
      (model.interfaces.map (·.typeName.key)).Nodup ∧
        ∀ key ∈ model.builderKeys style, key ∉ (model.sourceFiles style).map SourceFile.key := by
  rw [declaredKeys, List.nodup_append', h.nodup_keys_sourceFiles_iff hdigest]
  exact and_congr_right fun _ => ⟨fun hkeys key hbuilder hfile => hkeys.2 hfile hbuilder,
    fun hkeys => ⟨h.nodup_builderKeys style, fun key hfile hbuilder => hkeys key hbuilder hfile⟩⟩

end Assembled

/-- Every builder stands in a file of its package. -/
theorem exists_file_of_mem_builderKeys {model : GeneratedModel} {style : Kotlin.Style}
    {key : TypeKey} (hkey : key ∈ model.builderKeys style) :
    ∃ f ∈ model.sourceFiles style, f.package = key.package ∧ f.OpensClass key.name := by
  obtain ⟨d, hd, hbuilder⟩ := List.mem_filterMap.mp hkey
  obtain ⟨name, hname, rfl⟩ := Option.map_eq_some_iff.mp hbuilder
  refine ⟨Kotlin.classFile style d, ?_, rfl, Kotlin.classFile_opensClass hname⟩
  simp only [sourceFiles, Kotlin.catalogFiles, List.mem_append]
  exact .inl (.inl (.inl (List.mem_map_of_mem hd)))

/-- In every model that is built, whatever the style of its sources: two declarations share a name
only where two interfaces of actions do, or where a builder and another declaration do; two files
share a path only where two interfaces share a name; and the builders stand in the files of their
packages. -/
theorem build_declares_once_iff {m : Type → Type} [Monad m] [LawfulMonad m] {load : Loader m}
    {o : GenerationOptions} {s : ResolutionSettings} {location package : String}
    (hdigest : DigestsApart load o s location package) :
    Yields (fun result => ∀ model, result = .ok model → ∀ style : Kotlin.Style,
        ((model.declaredKeys style).Nodup ↔
          (model.interfaces.map (·.typeName.key)).Nodup ∧
            ∀ key ∈ model.builderKeys style, key ∉ (model.sourceFiles style).map SourceFile.key) ∧
        (((model.sourceFiles style).map SourceFile.relativePath).Nodup ↔
          (model.interfaces.map (·.typeName.key)).Nodup) ∧
        ∀ key ∈ model.builderKeys style, ∃ f ∈ model.sourceFiles style,
          f.package = key.package ∧ f.OpensClass key.name)
      (GeneratedModel.build load o s location package) := by
  refine yields_build_of_digestsApart hdigest fun hother hvalid thing model hmodel style => ?_
  obtain ⟨c, d, h⟩ := ofThing_assembled thing.within_true hvalid hmodel
  exact ⟨h.nodup_declaredKeys_iff hother style,
    (h.nodup_relativePaths_iff style).trans (h.nodup_keys_sourceFiles_iff hother style),
    fun _ hkey => exists_file_of_mem_builderKeys hkey⟩

end GeneratedModel

/-- A link to the lamp as a feature. -/
def lampLink (instanceName : String) : Json :=
  .object [("rel", .string submodelRelation), ("href", .string "lamp.json"),
    ("instanceName", .string instanceName)]

/-- A Thing with two features that differ in how their name is written. -/
def twoLamps : List (String × Json) :=
  [("lamp.json", .object [("actions", .object [("on", .object [])])]),
    ("hall.json", .object [("title", .string "Hall"),
      ("links", .array [lampLink "left lamp", lampLink "LeftLamp"])])]

def twoLampsBuild : Id (Except GenerationError GeneratedModel) :=
  GeneratedModel.build (Loader.ofDocuments twoLamps) {}
    { placement := .separate } "hall.json" "p"

/-- The interfaces of the two lamps have one name, and their files have one path. -/
theorem twoLampsBuild_declares_twice : ∃ model, twoLampsBuild = .ok model ∧
    model.interfaces.map (·.typeName.key) =
      [⟨"p.features.leftlamp.actions", "LeftLampActions"⟩,
        ⟨"p.features.leftlamp.actions", "LeftLampActions"⟩] ∧
    ∀ style : Kotlin.Style, ¬((model.sourceFiles style).map SourceFile.relativePath).Nodup := by
  have hrun : (match twoLampsBuild with
      | .ok model => model.interfaces.map (·.typeName.key)
      | .error _ => []) =
      [⟨"p.features.leftlamp.actions", "LeftLampActions"⟩,
        ⟨"p.features.leftlamp.actions", "LeftLampActions"⟩] := by
    decide +kernel
  have hdigest : GeneratedModel.DigestsApart (Loader.ofDocuments twoLamps : Loader Id) {}
      { placement := .separate } "hall.json" "p" :=
    GeneratedModel.digestsApart_of_memory (by decide +kernel)
  obtain ⟨proved, hproved⟩ := GeneratedModel.build_declares_once_iff hdigest
  cases h : twoLampsBuild with
  | error e => simp [h] at hrun
  | ok model =>
    rw [h] at hrun
    dsimp only at hrun
    refine ⟨model, rfl, hrun, fun style hnodup => ?_⟩
    have hkeys := ((proved.2 model (hproved.trans h)) style).2.1.mp hnodup
    rw [hrun] at hkeys
    exact absurd hkeys (by decide)

end ThingTypes
