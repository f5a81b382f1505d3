import ThingTypes.Proofs.Generation.Declarations

/-
  Where the files of a build are put. A path is made of the segments of a package and of the name of
  a type, and nothing that a Thing Model says leads out of the output directory.
-/

namespace ThingTypes

namespace SourceFile

/-- The path goes down, through directories that can be segments of packages, to a file that is
named by nothing but characters of names. -/
structure StaysInside (f : SourceFile) : Prop where
  package : Package.check f.package = .ok ()
  ne_empty : f.name ≠ ""
  chars : ∀ c ∈ f.name.toList, c ≠ '/' ∧ c ≠ '\\' ∧ c ≠ '.'
  path : ∃ segments : List (List Char), segments ≠ [] ∧ (∀ l ∈ segments, Package.isSegment l) ∧
    ['.'].intercalate segments = f.package.toList ∧
    f.relativePath.toList =
      ['/'].intercalate (segments ++ [f.name.toList ++ '.' :: f.extension.toList])

theorem staysInside {f : SourceFile} (hpackage : Package.isValid f.package)
    (hname : IsName f.name) :
    f.StaysInside where
  package := by rw [Package.check, if_pos hpackage]
  ne_empty := hname.ne_empty
  chars c hc :=
    have hchar := hname.chars c hc
    ⟨hchar.ne_slash, hchar.ne_backslash, hchar.ne_dot⟩
  path := by
    refine ⟨f.package.toList.splitOn '.', List.splitOn_ne_nil _ _, fun segment hsegment => ?_,
      List.intercalate_splitOn '.', ?_⟩
    · rw [← Text.splitOn_beq] at hsegment
      exact List.all_eq_true.mp hpackage segment hsegment
    · rw [toList_relativePath hpackage hname.plain, pathParts, ← Path.intercalate_concat]

end SourceFile

/-- Every file of every build stays inside of the output directory, and its extension is the one of
the style. -/
theorem GeneratedModel.build_staysInside {m : Type → Type} [Monad m] [LawfulMonad m]
    (load : Loader m) (o : GenerationOptions) (s : ResolutionSettings) (location package : String) :
    Yields (fun result => ∀ model, result = .ok model → ∀ style : Kotlin.Style,
        ∀ f ∈ model.sourceFiles style, f.StaysInside ∧ f.extension = style.profile.extension)
      (GeneratedModel.build load o s location package) := by
  refine yields_build_of_ofThing fun hvalid thing model hmodel style f hf => ?_
  obtain ⟨c, d, h⟩ := ofThing_assembled thing.within_true hvalid hmodel
  obtain ⟨hpackage, hname⟩ := h.isName_of_mem_sourceFiles hf
  exact ⟨SourceFile.staysInside hpackage hname, Assembled.extension_of_mem_sourceFiles hf⟩

/-- A Thing whose texts look like paths. -/
def climbingThing : List (String × Json) := [
  ("lamp.json", lampDocument),
  ("hall.json", .object [
    ("title", .string "../../hall"),
    ("properties", .object [("..\\mode/", .object [
      ("type", .string "string"), ("enum", .array [.string "../on"])])]),
    ("links", .array [lampLink "../lamp.kt"])])]

def climbingBuild : Id (Except GenerationError GeneratedModel) :=
  GeneratedModel.build (Loader.ofDocuments climbingThing) {}
    { placement := .separate, digest := plainDigest } "hall.json" "p"

def climbingPaths : List String := [
  "p/attributes/Attributes.kt", "p/features/lampkt/LampKt.kt",
  "p/features/lampkt/actions/FadeInput.kt", "p/Hall.kt", "p/attributes/AttributesMode.kt",
  "p/features/lampkt/properties/LampKtMode.kt", "p/features/lampkt/actions/ActionName.kt",
  "p/features/lampkt/actions/LampKtActions.kt"]

/-- The files of the build, and why none of them is elsewhere. -/
theorem climbingBuild_staysInside : ∃ model, climbingBuild = .ok model ∧
    (model.sourceFiles {}).map SourceFile.relativePath = climbingPaths ∧
    ∀ f ∈ model.sourceFiles {}, f.StaysInside ∧ f.extension = "kt" := by
  have hrun : (match climbingBuild with
      | .ok model => (model.sourceFiles {}).map SourceFile.relativePath
      | .error _ => []) = climbingPaths := by
    decide +kernel
  obtain ⟨proved, hproved⟩ := GeneratedModel.build_staysInside
    (Loader.ofDocuments climbingThing : Loader Id) {}
    { placement := .separate, digest := plainDigest } "hall.json" "p"
  cases h : climbingBuild with
  | error e => simp [h, climbingPaths] at hrun
  | ok model =>
    rw [h] at hrun
    exact ⟨model, rfl, hrun, proved.2 model (hproved.trans h) {}⟩

end ThingTypes
