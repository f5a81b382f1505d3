import Mathlib.Data.List.Infix
import ThingTypes.Proofs.Kotlin.DocComments

/-
  The lines of a source file. White space is cut off at the end of the file only, so a line of a
  declaration that is not indented and does not end in white space stands in the file as it is, with
  the end of the line before in front of it (`line_infix`).
-/

namespace ThingTypes.Kotlin

theorem infix_join {l : List String} {text : String} (hends : ∀ t ∈ l, ∃ u, t = u ++ "\n")
    (hmem : text ∈ l) : ("\n" ++ text).toList <:+: ("\n" ++ String.join l).toList := by
  induction l with
  | nil => cases hmem
  | cons first rest ih =>
    obtain ⟨start, hstart⟩ := hends first List.mem_cons_self
    rw [String.join_cons]
    rcases List.mem_cons.mp hmem with rfl | hmem
    · exact ⟨[], (String.join rest).toList, by simp⟩
    · obtain ⟨before, after, h⟩ := ih (fun t ht => hends t (List.mem_cons_of_mem _ ht)) hmem
      refine ⟨'\n' :: start.toList ++ before, after, ?_⟩
      rw [hstart]
      simpa using h

/-- The lines of the imports of a file. -/
def importLines (f : Fragment) : List String :=
  (ascending f.imports).map fun path => "import " ++ path ++ "\n"

theorem contents_sourceFile (p : RenderProfile) (package name : String) (f : Fragment) :
    (sourceFile p package name f).contents =
      fileHeader ++ "\n" ++ (if package.isEmpty then "" else "package " ++ package ++ "\n") ++ "\n"
        ++ (if (importLines f).isEmpty then "" else String.join (importLines f) ++ "\n")
        ++ String.ofList (Unicode.trimEnd (String.join (f.lines.map (Line.render p))).toList)
        ++ "\n" :=
  rfl

theorem Fragment.lines_append (f g : Fragment) : (f ++ g).lines = f.lines ++ g.lines := rfl

theorem Fragment.lines_line (level : Nat) (text : String) :
    (line level text).lines = [⟨level, text⟩] :=
  rfl

theorem Line.exists_render (p : RenderProfile) (l : Line) : ∃ text, l.render p = text ++ "\n" := by
  unfold render
  split
  · exact ⟨"", rfl⟩
  · exact ⟨_, rfl⟩

/-- The declarations follow the end of a line. -/
theorem body_in_contents (p : RenderProfile) (package name : String) (f : Fragment) :
    '\n' :: Unicode.trimEnd (String.join (f.lines.map (Line.render p))).toList <:+:
      (sourceFile p package name f).contents.toList := by
  rw [contents_sourceFile]
  generalize (if package.isEmpty then "" else "package " ++ package ++ "\n") = packageLine
  split
  · exact ⟨(fileHeader ++ "\n" ++ packageLine).toList, ['\n'], by simp⟩
  · exact ⟨(fileHeader ++ "\n" ++ packageLine ++ "\n" ++ String.join (importLines f)).toList,
      ['\n'], by simp⟩

/-- A part that does not end in white space is there before the white space at the end. -/
theorem infix_of_append_blanks {part kept blanks : List Char} (h : part <:+: kept ++ blanks)
    (hblanks : ∀ c ∈ blanks, Unicode.isBlank c) {last : Char} (hlast : part.getLast? = some last)
    (hblank : ¬Unicode.isBlank last) : part <:+: kept := by
  obtain ⟨before, after, htext⟩ := h
  rcases List.append_eq_append_iff.mp htext with ⟨rest, hkept, -⟩ | ⟨cut, hpart, hcut⟩
  · exact ⟨before, rest, hkept.symm⟩
  · -- the end of the part would be white space
    have hnil : cut = [] := by
      by_contra hne
      have hsame : cut.getLast? = some last := by
        rw [← hlast, ← List.getLast?_append_of_ne_nil _ hne, ← hpart,
          List.getLast?_append_of_ne_nil _ (by rintro rfl; cases hlast)]
      have hmem : last ∈ cut := List.mem_of_getLast? hsame
      exact hblank (hblanks last (hcut ▸ List.mem_append_left _ hmem))
    rw [hnil, List.append_nil] at hpart
    exact ⟨before, [], by rw [List.append_nil, hpart]⟩

theorem line_infix (p : RenderProfile) (package name : String) {f : Fragment} {text : String}
    (hmem : ⟨0, text⟩ ∈ f.lines) {last : Char} (hlast : text.toList.getLast? = some last)
    (hblank : ¬Unicode.isBlank last) :
    ("\n" ++ text).toList <:+: (sourceFile p package name f).contents.toList := by
  have hne : text ≠ "" := by
    rintro rfl
    cases hlast
  have hrender : Line.render p ⟨0, text⟩ = text ++ "\n" := by
    simp [Line.render, hne, RenderProfile.indentation]
  let body := (String.join (f.lines.map (Line.render p))).toList
  have hjoin : ("\n" ++ (text ++ "\n")).toList <:+: '\n' :: body := by
    have hline := infix_join (List.forall_mem_map.mpr fun l _ => l.exists_render p)
      (List.mem_map_of_mem hmem)
    rw [hrender] at hline
    simpa [body] using hline
  have hbody : ("\n" ++ text).toList <:+: '\n' :: body :=
    List.IsInfix.trans ⟨[], ['\n'], by simp⟩ hjoin
  obtain ⟨blanks, hkept, hblanks⟩ := exists_trimEnd_append body
  rw [← hkept, ← List.cons_append] at hbody
  exact (infix_of_append_blanks hbody hblanks (by simp [List.getLast?_cons, hlast]) hblank).trans
    (body_in_contents p package name f)

end ThingTypes.Kotlin
