import ThingTypes.Kotlin.SourceFile
import ThingTypes.Proofs.Identifier.Plain
import ThingTypes.Proofs.Text.Split
import ThingTypes.TypeGraph.TypeName

/-
  The paths of source files. The segments of a package and the name of a type have no slashes, so
  the path of a file says which type it declares: no two types of valid packages have their files in
  one place.
-/

namespace ThingTypes

namespace Path

variable {base part file : String} {segments : List (List Char)}

theorem isAbsolute_ofList {cs : List Char} (h : '/' ∉ cs) :
    isAbsolute (String.ofList cs) = false := by
  cases cs with
  | nil => rfl
  | cons c cs =>
    have hc : c ≠ '/' := fun hc => h (hc ▸ List.mem_cons_self)
    simp [isAbsolute, hc]

theorem join_eq (hbase : base ≠ "") (hlast : base.toList.getLast? ≠ some '/')
    (hpart : isAbsolute part = false) : join base part = base ++ "/" ++ part := by
  simp [join, hpart, hbase, hlast]

/-- Parts without slashes are put one behind the other, with slashes between them. -/
theorem toList_foldl_join (hfile : isAbsolute file = false)
    (hsegments : ∀ segment ∈ segments, segment ≠ [] ∧ '/' ∉ segment) (hbase : base ≠ "")
    (hlast : base.toList.getLast? ≠ some '/') :
    ((segments.map String.ofList ++ [file]).foldl join base).toList =
      base.toList ++ '/' :: ['/'].intercalate (segments ++ [file.toList]) := by
  induction segments generalizing base with
  | nil =>
    simp [join_eq hbase hlast hfile]
  | cons segment rest ih =>
    obtain ⟨hne, hslash⟩ := hsegments segment List.mem_cons_self
    have hjoin := join_eq hbase hlast (isAbsolute_ofList hslash)
    have hlast' : (join base (String.ofList segment)).toList.getLast? ≠ some '/' := by
      rw [hjoin, String.toList_append, String.toList_ofList,
        List.getLast?_append_of_ne_nil _ hne]
      exact fun h => hslash (List.mem_of_getLast? h)
    have hbase' : join base (String.ofList segment) ≠ "" := by
      rw [hjoin]
      simp
    obtain ⟨next, others, hnext⟩ : ∃ next others, rest ++ [file.toList] = next :: others :=
      List.exists_cons_of_ne_nil (by simp)
    rw [List.map_cons, List.cons_append, List.foldl_cons,
      ih (fun segment hmem => hsegments segment (List.mem_cons_of_mem _ hmem)) hbase' hlast',
      List.cons_append, hnext, List.intercalate_cons_cons, hjoin]
    simp

/-- What is put behind the last text is put behind all of them. -/
theorem intercalate_concat (separator last suffix : List Char) (texts : List (List Char)) :
    separator.intercalate (texts ++ [last ++ suffix]) =
      separator.intercalate (texts ++ [last]) ++ suffix := by
  induction texts with
  | nil => simp
  | cons text rest ih =>
    cases rest with
    | nil => simp [List.intercalate_cons_cons]
    | cons next rest =>
      simp only [List.cons_append, List.intercalate_cons_cons, List.append_assoc] at ih ⊢
      rw [ih]

end Path

namespace SourceFile

/-- The name of the type that a file declares. -/
def key (f : SourceFile) : TypeKey := ⟨f.package, f.name⟩

variable {f g : SourceFile}

/-- The segments of a package and the name of a type, which make the path of its file. -/
def pathParts (f : SourceFile) : List (List Char) :=
  f.package.toList.splitOn '.' ++ [f.name.toList]

theorem not_mem_pathParts (hpackage : Package.isValid f.package) (hname : Plain f.name) :
    ∀ part ∈ f.pathParts, '/' ∉ part := by
  intro part hpart
  rcases List.mem_append.mp hpart with hpart | hpart
  · rw [← Text.splitOn_beq] at hpart
    exact fun hslash =>
      (Package.isPlain_of_isSegment (List.all_eq_true.mp hpackage part hpart) hslash).ne_slash rfl
  · rw [List.mem_singleton.mp hpart]
    exact fun hslash => (hname _ hslash).ne_slash rfl

/-- The path is made of the parts, with slashes between them, and of the extension. -/
theorem toList_relativePath (hpackage : Package.isValid f.package) (hname : Plain f.name) :
    f.relativePath.toList = ['/'].intercalate f.pathParts ++ '.' :: f.extension.toList := by
  have hslash := not_mem_pathParts hpackage hname
  have hsegment : ∀ segment ∈ f.package.toList.splitOn '.', segment ≠ [] ∧ '/' ∉ segment := by
    intro segment hmem
    refine ⟨?_, hslash segment (List.mem_append_left _ hmem)⟩
    rw [← Text.splitOn_beq] at hmem
    rintro rfl
    exact absurd (List.all_eq_true.mp hpackage [] hmem) (by decide)
  have hfilter : (Text.splitOn (· == '.') f.package.toList).filter (!·.isEmpty) =
      f.package.toList.splitOn '.' := by
    rw [Text.splitOn_beq, List.filter_eq_self]
    exact fun segment hmem => by simpa using (hsegment segment hmem).1
  have hfile : Path.isAbsolute (f.name ++ "." ++ f.extension) = false := by
    cases hchars : f.name.toList with
    | nil => simp [Path.isAbsolute, hchars]
    | cons c cs =>
      have hc : c ≠ '/' := (hname c (by simp [hchars])).ne_slash
      simp [Path.isAbsolute, hchars, hc]
  obtain ⟨first, rest, hsplit⟩ : ∃ first rest, f.package.toList.splitOn '.' = first :: rest :=
    List.exists_cons_of_ne_nil (List.splitOn_ne_nil _ _)
  rw [hsplit, List.forall_mem_cons] at hsegment
  obtain ⟨⟨hne, hfirst⟩, hrest⟩ := hsegment
  have hbase : Path.join "" (String.ofList first) = String.ofList first := by simp [Path.join]
  obtain ⟨next, others, hnext⟩ : ∃ next others, rest ++ [f.name.toList] = next :: others :=
    List.exists_cons_of_ne_nil (by simp)
  unfold relativePath pathParts
  dsimp only
  rw [hfilter, hsplit, List.map_cons, List.cons_append, List.foldl_cons, hbase,
    Path.toList_foldl_join hfile hrest (by simpa using hne)
      (by simpa using fun h => hfirst (List.mem_of_getLast? h)), String.toList_append,
    String.toList_append, List.append_assoc, Path.intercalate_concat, List.cons_append, hnext,
    List.intercalate_cons_cons]
  simp

/-- Files of one kind at one place declare the same type. -/
theorem key_eq_of_relativePath_eq (hf : Package.isValid f.package) (hg : Package.isValid g.package)
    (hfname : Plain f.name) (hgname : Plain g.name) (hextension : f.extension = g.extension)
    (h : f.relativePath = g.relativePath) : f.key = g.key := by
  have hpath := congrArg String.toList h
  rw [toList_relativePath hf hfname, toList_relativePath hg hgname, hextension,
    List.append_cancel_right_eq] at hpath
  have hparts := congrArg (List.splitOn '/') hpath
  rw [List.splitOn_intercalate '/' (not_mem_pathParts hf hfname) (by simp [pathParts]),
    List.splitOn_intercalate '/' (not_mem_pathParts hg hgname) (by simp [pathParts])] at hparts
  obtain ⟨hsegments, hname⟩ := List.append_inj' hparts rfl
  have hpackage := congrArg (['.'].intercalate ·) hsegments
  simp only [List.intercalate_splitOn] at hpackage
  rw [List.singleton_inj] at hname
  rw [key, key, String.toList_inj.mp hpackage, String.toList_inj.mp hname]

end SourceFile

end ThingTypes
