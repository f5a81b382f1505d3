import Mathlib.Data.List.Infix
import ThingTypes.Kotlin.Printer
import ThingTypes.Proofs.Identifier.Plain
import ThingTypes.Proofs.Json.Sorted
import ThingTypes.Proofs.Kotlin.SourceLines

/-
  The types that a file mentions. A type is written as it is seen from inside its package, so a type
  of another package is imported, by the name of the top-level type that it belongs to. What is
  written means one type if these names are told apart (`Hygienic`).
-/

namespace ThingTypes

/-! ## Mentions -/

/-- The types behind the header of a class, and those of the members that its kind has. -/
def ClassDecl.mentioned (c : ClassDecl) : List TypeName :=
  c.sealedParents ++
    match c.kind with
    | .data => c.fields.filterMap fun field => field.type.referencedName?
    | .mapWrapper => (c.mapValue?.bind TypeRef.referencedName?).toList
    | .plain | .sealed => []

def AliasDecl.mentioned (a : AliasDecl) : List TypeName :=
  a.target.referencedName?.toList ++ a.sealedParent?.toList

/-- The types of what goes into an action and of what comes out. -/
def ActionMethod.mentioned (method : ActionMethod) : List TypeName :=
  (method.input?.bind TypeRef.referencedName?).toList
    ++ (method.output?.bind TypeRef.referencedName?).toList

def ActionInterface.mentioned (i : ActionInterface) : List TypeName :=
  i.actionEnum :: i.methods.flatMap ActionMethod.mentioned

/-! ## Names in a file -/

/-- Types that are called alike at the top level are of one package. -/
def Hygienic (names : List TypeName) : Prop :=
  ∀ a ∈ names, ∀ b ∈ names, a.topLevel = b.topLevel → a.package = b.package

instance : DecidablePred Hygienic := fun names =>
  inferInstanceAs (Decidable (∀ a ∈ names, ∀ b ∈ names, a.topLevel = b.topLevel →
    a.package = b.package))

/-- Texts are taken apart at the last dot, which is in front of the name. -/
theorem TypeName.nested_inj {owner owner' name name' : String} (hname : NameText name)
    (hname' : NameText name') (h : owner ++ "." ++ name = owner' ++ "." ++ name') :
    owner = owner' ∧ name = name' := by
  have hlast (owner : String) {name : String} (hname : NameText name) :
      (owner ++ "." ++ name).toList.reverse.takeWhile (· != '.') = name.toList.reverse := by
    have hchars : ∀ c ∈ name.toList.reverse, (c != '.') = true := fun c hc => by
      simpa using (hname c (List.mem_reverse.mp hc)).ne_dot
    have hsplit : (owner ++ "." ++ name).toList.reverse =
        name.toList.reverse ++ '.' :: owner.toList.reverse := by
      simp
    rw [hsplit, List.takeWhile_append_of_pos hchars]
    simp
  have hnames : name = name' := by
    have htaken := hlast owner hname
    rw [h, hlast owner' hname', List.reverse_inj, String.toList_inj] at htaken
    exact htaken.symm
  subst hnames
  simpa [← String.toList_inj] using h

/-- What is written of a type says which type of its package it is. -/
theorem TypeName.eq_of_localName {a b : TypeName} (ha : IsName a.name) (hb : IsName b.name)
    (hpackage : a.topLevel = b.topLevel → a.package = b.package)
    (h : a.localName = b.localName) : a = b := by
  have hdot {text : String} (htext : IsName text) (owner name : String) :
      text ≠ owner ++ "." ++ name := by
    rintro rfl
    exact (htext.chars '.' (by simp)).ne_dot rfl
  obtain ⟨package, name, owner?⟩ := a
  obtain ⟨package', name', owner?'⟩ := b
  cases owner? with
  | none =>
    cases owner?' with
    | none =>
      obtain rfl : name = name' := h
      obtain rfl : package = package' := hpackage rfl
      rfl
    | some owner' => exact absurd h (hdot ha owner' name')
  | some owner =>
    cases owner?' with
    | none => exact absurd h.symm (hdot hb owner name)
    | some owner' =>
      obtain ⟨rfl, rfl⟩ := nested_inj ha.chars hb.chars h
      obtain rfl : package = package' := hpackage rfl
      rfl

/-! ## Imports -/

theorem mem_dropRepeats {path : String} {l : List String} :
    path ∈ ascending.dropRepeats l ↔ path ∈ l := by
  induction l with
  | nil => exact Iff.rfl
  | cons a rest ih =>
    cases rest with
    | nil => exact Iff.rfl
    | cons b rest =>
      rw [ascending.dropRepeats]
      split
      · rename_i hab
        rw [ih, List.mem_cons, hab]
        simp
      · rw [List.mem_cons, ih, ← List.mem_cons]

theorem mem_ascending {path : String} {l : List String} : path ∈ ascending l ↔ path ∈ l :=
  mem_dropRepeats.trans (sortBy_perm textLE l).mem_iff

namespace Kotlin

open Fragment (line blank importing concat)

namespace Fragment

variable (a b : Fragment)

@[simp] theorem imports_append : (a ++ b).imports = a.imports ++ b.imports := rfl

@[simp] theorem imports_importing (imports : List String) :
    (importing imports).imports = imports := rfl

@[simp] theorem imports_line (level : Nat) (text : String) : (line level text).imports = [] := rfl

theorem mem_imports_concat {path : String} {l : List Fragment} :
    path ∈ (concat l).imports ↔ ∃ f ∈ l, path ∈ f.imports := by
  induction l with
  | nil => simp [concat]
  | cons f rest ih =>
    have hcons : concat (f :: rest) = f ++ concat rest := rfl
    rw [hcons, imports_append, List.mem_append, ih]
    simp

end Fragment

/-- Where a type is imported from. -/
def importPath (type : TypeName) : String := type.package ++ "." ++ type.topLevel

/-- The line that imports a type, with the end of the line before. -/
def importLine (type : TypeName) : String := "\n" ++ ("import " ++ importPath type ++ "\n")

variable {package : String} {type : TypeName}

theorem mem_typeImport (hother : type.package ≠ package) :
    importPath type ∈ typeImport package type := by
  rw [typeImport, if_neg hother]
  exact List.mem_singleton.mpr rfl

theorem mem_typeImports {names : List TypeName} (hmem : type ∈ names)
    (hother : type.package ≠ package) : importPath type ∈ typeImports package names :=
  List.mem_flatMap.mpr ⟨type, hmem, mem_typeImport hother⟩

theorem mem_refImports {ref : TypeRef} (hmem : ref.referencedName? = some type)
    (hother : type.package ≠ package) : importPath type ∈ refImports package ref :=
  mem_typeImports (by simp [hmem]) hother

theorem exists_contents (p : RenderProfile) (package name : String) {f : Fragment}
    (hne : importLines f ≠ []) : ∃ before after, (sourceFile p package name f).contents =
      before ++ ("\n" ++ String.join (importLines f)) ++ after := by
  have hblock : (importLines f).isEmpty = false := List.isEmpty_eq_false_iff.mpr hne
  rw [contents_sourceFile, hblock, if_neg Bool.false_ne_true]
  generalize (if package.isEmpty then "" else "package " ++ package ++ "\n") = packageLine
  generalize String.ofList (Unicode.trimEnd _) = body
  exact ⟨fileHeader ++ "\n" ++ packageLine, "\n" ++ body ++ "\n",
    by simp only [String.append_assoc]⟩

/-- Every import of a fragment is a line of its file. -/
theorem importLine_infix (p : RenderProfile) (package name : String) {f : Fragment}
    (h : importPath type ∈ f.imports) :
    (importLine type).toList <:+: (sourceFile p package name f).contents.toList := by
  have hmem : "import " ++ importPath type ++ "\n" ∈ importLines f :=
    List.mem_map_of_mem (mem_ascending.mpr h)
  have hends : ∀ text ∈ importLines f, ∃ path, text = path ++ "\n" := by
    intro text htext
    obtain ⟨path, -, rfl⟩ := List.mem_map.mp htext
    exact ⟨_, rfl⟩
  obtain ⟨before, after, hcontents⟩ := exists_contents p package name (List.ne_nil_of_mem hmem)
  have hline : (importLine type).toList <:+: ("\n" ++ String.join (importLines f)).toList :=
    infix_join hends hmem
  rw [hcontents, String.toList_append, String.toList_append]
  exact hline.trans (List.infix_append _ _ _)

/-! ## Files -/

/-- A file with the type that it declares and the types that the declaration mentions. -/
structure Printed where
  file : SourceFile
  type : TypeName
  mentioned : List TypeName

namespace Printed

def names (printed : Printed) : List TypeName := printed.type :: printed.mentioned

/-- Each type of another package is imported. -/
def ImportsOthers (printed : Printed) : Prop :=
  ∀ type ∈ printed.mentioned, type.package ≠ printed.type.package →
    (importLine type).toList <:+: printed.file.contents.toList

def ofClass (style : Style) (c : ClassDecl) : Printed :=
  ⟨classFile style c, c.typeName, c.mentioned⟩

def ofAlias (p : RenderProfile) (a : AliasDecl) : Printed :=
  ⟨aliasFile p a, a.typeName, a.mentioned⟩

def ofInterface (p : RenderProfile) (i : ActionInterface) : Printed :=
  ⟨interfaceFile p i, i.typeName, i.mentioned⟩

theorem mem_imports_classBody {style : Style} {c : ClassDecl} {ref : TypeRef}
    (href : c.kind = .data ∧ (∃ field ∈ c.fields, field.type = ref) ∨
      c.kind = .mapWrapper ∧ c.mapValue? = some ref)
    (hmem : ref.referencedName? = some type) (hother : type.package ≠ c.package) :
    importPath type ∈ (classBody style c).imports := by
  have himport := mem_refImports hmem hother
  rcases href with ⟨hkind, field, hfield, rfl⟩ | ⟨hkind, hvalue⟩
  · have hfields :
        importPath type ∈
          (concat (c.fields.map (fieldDeclaration style.profile c.package))).imports :=
      Fragment.mem_imports_concat.mpr
        ⟨_, List.mem_map_of_mem hfield, by simp [fieldDeclaration, himport]⟩
    simp [classBody, hkind, hfields]
  · simp [classBody, hkind, hvalue, himport]

theorem ofClass_importsOthers (style : Style) (c : ClassDecl) :
    (ofClass style c).ImportsOthers := by
  intro type hmem hother
  refine importLine_infix _ _ _ ?_
  have hbody : type ∈ c.sealedParents ∨ importPath type ∈ (classBody style c).imports := by
    refine (List.mem_append.mp hmem).imp_right fun hmem => ?_
    split at hmem
    · rename_i hkind
      obtain ⟨field, hfield, href⟩ := List.mem_filterMap.mp hmem
      exact mem_imports_classBody (.inl ⟨hkind, field, hfield, rfl⟩) href hother
    · rename_i hkind
      obtain ⟨value, hvalue, href⟩ := Option.bind_eq_some_iff.mp (Option.mem_toList.mp hmem)
      exact mem_imports_classBody (.inr ⟨hkind, hvalue⟩) href hother
    · cases hmem
    · cases hmem
  simp only [Fragment.imports_append, Fragment.imports_importing, List.mem_append]
  rcases hbody with hparent | hbody
  · exact .inl (.inl (.inl (List.mem_cons_of_mem _ (mem_typeImports hparent hother))))
  · exact .inr hbody

theorem ofAlias_importsOthers (p : RenderProfile) (a : AliasDecl) :
    (ofAlias p a).ImportsOthers := by
  intro type hmem hother
  refine importLine_infix _ _ _ ?_
  rw [Fragment.imports_append, List.mem_append]
  rcases List.mem_append.mp hmem with htarget | hparent
  · exact .inl (mem_refImports (Option.mem_toList.mp htarget) hother)
  · have hparent : a.sealedParent? = some type := Option.mem_toList.mp hparent
    have himport : importPath type ∈ typeImport a.package type := mem_typeImport hother
    exact .inr (by simp [hparent, himport])

theorem ofInterface_importsOthers (p : RenderProfile) (i : ActionInterface) :
    (ofInterface p i).ImportsOthers := by
  intro type hmem hother
  refine importLine_infix _ _ _ ?_
  have hother : type.package ≠ i.package := hother
  have hbody : type = i.actionEnum ∨
      importPath type ∈ (concat (i.methods.map (methodDeclaration p i.package))).imports := by
    refine (List.mem_cons.mp hmem).imp_right fun hmem => ?_
    obtain ⟨method, hmethod, hmem⟩ := List.mem_flatMap.mp hmem
    refine Fragment.mem_imports_concat.mpr ⟨_, List.mem_map_of_mem hmethod, ?_⟩
    rcases List.mem_append.mp hmem with hinput | houtput
    · obtain ⟨input, hinput, href⟩ := Option.bind_eq_some_iff.mp (Option.mem_toList.mp hinput)
      simp [methodDeclaration, hinput, mem_refImports href hother]
    · obtain ⟨output, houtput, href⟩ := Option.bind_eq_some_iff.mp (Option.mem_toList.mp houtput)
      simp [methodDeclaration, houtput, mem_refImports href hother]
  simp only [Fragment.imports_append, Fragment.imports_importing, List.mem_append]
  rcases hbody with rfl | hbody
  · simp [mem_typeImport hother]
  · simp [hbody]

end Printed

end Kotlin

namespace GeneratedModel

variable {m : GeneratedModel} {style : Kotlin.Style}

/-- The files of classes, aliases and interfaces. -/
def printed (m : GeneratedModel) (style : Kotlin.Style) : List Kotlin.Printed :=
  m.catalog.classes.classes.values.map (.ofClass style)
    ++ m.catalog.classes.aliases.values.map (.ofAlias style.profile)
    ++ m.interfaces.map (.ofInterface style.profile)

/-- All other files are those of enums, which mention no types. -/
theorem mem_sourceFiles_iff {f : SourceFile} : f ∈ m.sourceFiles style ↔
    (∃ printed ∈ m.printed style, printed.file = f) ∨
      ∃ e ∈ m.catalog.enums.separate.values, Kotlin.enumFile style.profile e = f := by
  simp only [sourceFiles, Kotlin.catalogFiles, printed, List.mem_append, List.mem_map, or_and_right,
    exists_or, exists_exists_and_eq_and, Kotlin.Printed.ofClass, Kotlin.Printed.ofAlias,
    Kotlin.Printed.ofInterface]
  exact or_right_comm

theorem printed_importsOthers {printed : Kotlin.Printed} (h : printed ∈ m.printed style) :
    printed.ImportsOthers := by
  simp only [GeneratedModel.printed, List.mem_append, List.mem_map] at h
  rcases h with (⟨c, -, rfl⟩ | ⟨a, -, rfl⟩) | ⟨i, -, rfl⟩
  · exact Kotlin.Printed.ofClass_importsOthers style c
  · exact Kotlin.Printed.ofAlias_importsOthers style.profile a
  · exact Kotlin.Printed.ofInterface_importsOthers style.profile i

end GeneratedModel

end ThingTypes
