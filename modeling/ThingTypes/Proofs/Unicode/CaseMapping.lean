import Mathlib.Tactic.Common
import ThingTypes.Unicode.CaseMapping

/-
  Case mappings as tables over all scripts. What a table makes of a character comes from one of four
  places (`IsMapping`); facts about mappings are proved place by place, and go through the runs of a
  table, not through its characters.
-/

namespace ThingTypes

/-- What can be checked of each ASCII character holds of all of them. -/
theorem forall_ascii {P : Char → Prop} (h : ∀ n < 0x80, P (Char.ofNat n)) {c : Char}
    (hc : c.toNat < 0x80) : P c := by
  have hcode := h c.toNat hc
  rwa [Char.ofNat_toNat] at hcode

theorem lt_of_isAlphanum {c : Char} (h : c.isAlphanum) : c.toNat < 0x80 := by
  unfold Char.isAlphanum Char.isAlpha Char.isUpper Char.isLower Char.isDigit at h
  simp only [Bool.or_eq_true, Bool.and_eq_true, decide_eq_true_eq, ge_iff_le,
    UInt32.le_iff_toNat_le] at h
  have hcode : c.val.toNat = c.toNat := rfl
  simp at h
  omega

namespace Unicode

theorem toNat_ofNat_of_isValidChar {n : Nat} (h : n.isValidChar) : (Char.ofNat n).toNat = n := by
  rw [Char.ofNat, dif_pos h]
  rfl

theorem toNat_ofNat_of_ne_zero {n : Nat} (h : (Char.ofNat n).toNat ≠ 0) :
    (Char.ofNat n).toNat = n := by
  by_cases hvalid : n.isValidChar
  · exact toNat_ofNat_of_isValidChar hvalid
  · rw [Char.ofNat, dif_neg hvalid] at h
    exact absurd rfl h

/-- What a table of case mappings can make of a character. -/
inductive IsMapping (ascii : Char → Char) (sequences : List (Nat × List Nat))
    (runs : List CaseRun) (c : Char) : List Char → Prop
  | low (h : c.toNat < 0x80) : IsMapping ascii sequences runs c [ascii c]
  | sequence {codes : List Nat} (h : (c.toNat, codes) ∈ sequences) :
    IsMapping ascii sequences runs c (codes.map Char.ofNat)
  | run {r : CaseRun} (h : r ∈ runs) (hholds : r.holds c.toNat = true) :
    IsMapping ascii sequences runs c [Char.ofNat (c.toNat + r.shift).toNat]
  | same : IsMapping ascii sequences runs c [c]

theorem isMapping_table (ascii : Char → Char) (sequences : List (Nat × List Nat))
    (runs : List CaseRun) (c : Char) :
    IsMapping ascii sequences runs c
      (if c.toNat < 0x80 then [ascii c]
      else match sequences.lookup c.toNat with
        | some codes => codes.map Char.ofNat
        | none => [Char.ofNat (shiftByRuns runs c.toNat)]) := by
  split
  · exact .low ‹_›
  · split
    · rename_i codes hcodes
      obtain ⟨before, after, happend, _⟩ := List.lookup_eq_some_iff.mp hcodes
      exact .sequence (by simp [happend])
    · unfold shiftByRuns
      cases hfind : runs.find? (·.holds c.toNat) with
      | none =>
        dsimp only
        rw [Char.ofNat_toNat]
        exact .same
      | some r =>
        have hholds := List.find?_some hfind
        exact .run (List.mem_of_find?_eq_some hfind) hholds

theorem isMapping_toUpper (c : Char) :
    IsMapping Char.toUpper upperSequences upperRuns c (toUpper c) :=
  isMapping_table _ _ _ c

theorem isMapping_toLower (c : Char) :
    IsMapping Char.toLower lowerSequences lowerRuns c (toLower c) :=
  isMapping_table _ _ _ c

end Unicode

end ThingTypes
