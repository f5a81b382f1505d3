import ThingTypes.Proofs.Identifier.Spelling

/-
  The package of a name. Its segment is made of small letters, digits and underscores and does not
  start with a digit, so the package below a valid one is valid again and every segment ends at a
  dot.
-/

namespace ThingTypes

namespace Identifier

/-- The segment of a name can stand in a package. -/
theorem isSegment_packageSegment (s : String) : Package.isSegment (packageSegment s).toList := by
  obtain ⟨⟨first, rest, hsegment, hfirst, hrest⟩, -⟩ := packageSegment_spec s
  rw [hsegment, Package.isSegment, Bool.and_eq_true, List.all_eq_true]
  exact ⟨hfirst, hrest⟩

end Identifier

namespace Package

theorem ne_dot_of_isSegment {segment : List Char} (h : isSegment segment) {c : Char}
    (hc : c ∈ segment) : c ≠ '.' := by
  rintro rfl
  cases segment with
  | nil => cases hc
  | cons first rest =>
    simp only [isSegment, Bool.and_eq_true, List.all_eq_true] at h
    rcases List.mem_cons.mp hc with rfl | hc
    · exact absurd h.1 (by decide)
    · exact absurd (h.2 _ hc) (by decide)

/-- The package below a valid one. -/
theorem isValid_child {package segment : String} (hpackage : isValid package)
    (hsegment : isSegment segment.toList) : isValid (child package segment) := by
  have hwhole : Text.splitOn (· == '.') segment.toList = [segment.toList] := by
    rw [Text.splitOn_beq, List.splitOn_eq_singleton]
    exact fun hdot => ne_dot_of_isSegment hsegment hdot rfl
  have hsplit : Text.splitOn (· == '.') (child package segment).toList =
      Text.splitOn (· == '.') package.toList ++ [segment.toList] := by
    rw [← hwhole, Text.splitOn_beq, Text.splitOn_beq, Text.splitOn_beq,
      ← List.splitOn_append_cons_self]
    simp [child]
  unfold isValid at hpackage ⊢
  rw [hsplit, List.all_append, hpackage]
  simpa using hsegment

end Package

end ThingTypes
