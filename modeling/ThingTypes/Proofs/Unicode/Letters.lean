import Mathlib.Tactic.Common
import ThingTypes.Proofs.Unicode.CaseMapping
import ThingTypes.Unicode.Alphanumeric
import ThingTypes.Unicode.LetterCase

/-
  What case mappings make of letters and numerals. A mapping starts with a letter or a numeral, and
  if it has more than one character, then it does not start with the character that it maps. So a
  text whose letters and numerals are those that it is mapped from is made of nothing else. That is
  a fact about the tables: each run of characters goes to a range of letters, and the ranges are
  compared with the table of letters and numerals once. So are the ranges of the small letters, and
  all of these are letters (`isAlphanumeric_of_isLowercase`).
-/

namespace ThingTypes.Unicode

/-! ## Ranges of letters -/

/-- Ranges of letters and numerals that case mappings lead to, the first and the last of each. -/
def letterRanges : List (Nat × Nat) := [
  (0xc0, 0xd6), (0xd8, 0xf6), (0xf8, 0x2c1), (0x363, 0x374), (0x376, 0x377), (0x37a, 0x37d),
  (0x37f, 0x37f), (0x386, 0x386), (0x388, 0x38a), (0x38c, 0x38c), (0x38e, 0x3a1), (0x3a3, 0x3f5),
  (0x3f7, 0x481), (0x48a, 0x52f), (0x531, 0x556), (0x560, 0x588), (0x10a0, 0x10c5),
  (0x10c7, 0x10c7), (0x10cd, 0x10cd), (0x10d0, 0x10fa), (0x10fc, 0x1248), (0x13a0, 0x13f5),
  (0x13f8, 0x13fd), (0x1c80, 0x1c8a), (0x1c90, 0x1cba), (0x1cbd, 0x1cbf), (0x1d00, 0x1dbf),
  (0x1e00, 0x1f15), (0x1f18, 0x1f1d), (0x1f20, 0x1f45), (0x1f48, 0x1f4d), (0x1f50, 0x1f57),
  (0x1f5f, 0x1f7d), (0x1f80, 0x1fb4), (0x1fb6, 0x1fbc), (0x1fc2, 0x1fc4), (0x1fc6, 0x1fcc),
  (0x1fd0, 0x1fd3), (0x1fd6, 0x1fdb), (0x1fe0, 0x1fec), (0x1ff2, 0x1ff4), (0x1ff6, 0x1ffc),
  (0x212f, 0x2139), (0x214e, 0x214e), (0x2150, 0x2189), (0x24b6, 0x24ff), (0x2c00, 0x2ce4),
  (0x2ceb, 0x2cee), (0x2cf2, 0x2cf3), (0x2d00, 0x2d25), (0x2d27, 0x2d27), (0x2d2d, 0x2d2d),
  (0xa640, 0xa66e), (0xa67f, 0xa6ef), (0xa722, 0xa788), (0xa78b, 0xa7dc), (0xa7f1, 0xa805),
  (0xab30, 0xab5a), (0xab70, 0xabea), (0xff21, 0xff3a), (0xff41, 0xff5a), (0x10400, 0x1049d),
  (0x104b0, 0x104d3), (0x104d8, 0x104fb), (0x10570, 0x1057a), (0x1057c, 0x1058a),
  (0x1058c, 0x10592), (0x10594, 0x10595), (0x10597, 0x105a1), (0x105a3, 0x105b1),
  (0x105b3, 0x105b9), (0x105bb, 0x105bc), (0x10c80, 0x10cb2), (0x10cc0, 0x10cf2),
  (0x10d40, 0x10d65), (0x10d6f, 0x10d85), (0x118a0, 0x118f2), (0x16e40, 0x16e96),
  (0x16ea0, 0x16eb8), (0x16ebb, 0x16ed3), (0x1e900, 0x1e943)]

/-- Whether the ranges lie, in order, inside the boundaries from `start` on. -/
def coversFrom : Nat → List Nat → List (Nat × Nat) → Bool
  | start, enter :: leave :: boundaries, ranges =>
    start ≤ enter && enter ≤ leave &&
      coversFrom leave boundaries
        (ranges.dropWhile fun range => enter ≤ range.1 && range.2 < leave)
  | _, _, ranges => ranges.isEmpty

theorem insideBoundaries_of_coversFrom {start : Nat} {boundaries : List Nat}
    {ranges : List (Nat × Nat)} (h : coversFrom start boundaries ranges = true) :
    ∀ range ∈ ranges, start ≤ range.1 ∧
      ∀ n, range.1 ≤ n → n ≤ range.2 → insideBoundaries boundaries n = true := by
  fun_induction coversFrom start boundaries ranges with
  | case1 start enter leave boundaries ranges ih =>
    simp only [Bool.and_eq_true, decide_eq_true_eq] at h
    obtain ⟨⟨hstart, hleave⟩, hothers⟩ := h
    intro range hrange
    rw [← List.takeWhile_append_dropWhile (p := fun range => enter ≤ range.1 && range.2 < leave)
      (l := ranges), List.mem_append] at hrange
    rcases hrange with hinside | hbehind
    · have hends : enter ≤ range.1 ∧ range.2 < leave := by
        simpa using List.all_eq_true.mp List.all_takeWhile range hinside
      refine ⟨by omega, fun n hfirst hlast => ?_⟩
      simp [insideBoundaries, Nat.not_lt.mpr (Nat.le_trans hends.1 hfirst),
        Nat.lt_of_le_of_lt hlast hends.2]
    · -- what lies behind the two boundaries is inside if it is inside the others
      obtain ⟨hfrom, hrange⟩ := ih hothers range hbehind
      refine ⟨by omega, fun n hfirst hlast => ?_⟩
      rw [insideBoundaries, if_neg (by omega), insideBoundaries, if_neg (by omega), Bool.not_not]
      exact hrange n hfirst hlast
  | case2 =>
    rw [List.isEmpty_iff.mp h]
    nofun

theorem covers_letterRanges :
    coversFrom 0 alphanumericBeyondAscii.boundaries letterRanges = true := by
  decide +kernel

/-- Each range lies beyond ASCII and off the codes that are no characters. -/
theorem valid_letterRanges : ∀ range ∈ letterRanges,
    0x80 ≤ range.1 ∧ (range.2 < 0xd800 ∨ 0xdfff < range.1 ∧ range.2 < 0x110000) := by
  decide +kernel

/-- A code of one of the ranges. -/
def InLetterRange (n : Nat) : Prop :=
  ∃ range ∈ letterRanges, range.1 ≤ n ∧ n ≤ range.2

instance (n : Nat) : Decidable (InLetterRange n) :=
  inferInstanceAs (Decidable (∃ range ∈ letterRanges, _))

theorem InLetterRange.toNat_ofNat {n : Nat} (h : InLetterRange n) : (Char.ofNat n).toNat = n := by
  obtain ⟨range, hrange, hfirst, hlast⟩ := h
  have hvalid := valid_letterRanges range hrange
  refine toNat_ofNat_of_isValidChar ?_
  unfold Nat.isValidChar
  omega

theorem InLetterRange.isAlphanumeric {n : Nat} (h : InLetterRange n) :
    isAlphanumeric (Char.ofNat n) = true := by
  have hcode := h.toNat_ofNat
  obtain ⟨range, hrange, hfirst, hlast⟩ := h
  have hlow : ¬n < 0x80 := by
    have hvalid := valid_letterRanges range hrange
    omega
  rw [Unicode.isAlphanumeric, hcode, if_neg hlow, CodeSet.contains, hcode]
  exact (insideBoundaries_of_coversFrom covers_letterRanges range hrange).2 n hfirst hlast

/-! ## Small letters -/

/-- The ranges that the boundaries enclose. -/
def rangesBetween : List Nat → List (Nat × Nat)
  | enter :: leave :: boundaries => (enter, leave - 1) :: rangesBetween boundaries
  | _ => []

theorem exists_range_of_insideBoundaries {boundaries : List Nat} {n : Nat}
    (heven : boundaries.length % 2 = 0) (h : insideBoundaries boundaries n = true) :
    ∃ range ∈ rangesBetween boundaries, range.1 ≤ n ∧ n ≤ range.2 := by
  fun_induction rangesBetween boundaries with
  | case1 enter leave boundaries ih =>
    by_cases henter : n < enter
    · simp [insideBoundaries, henter] at h
    · by_cases hleave : n < leave
      · exact ⟨(enter, leave - 1), List.mem_cons_self, by omega, by omega⟩
      · simp only [insideBoundaries, henter, hleave, if_false, Bool.not_not] at h
        obtain ⟨range, hrange, hbetween⟩ := ih (by simp only [List.length_cons] at heven; omega) h
        exact ⟨range, List.mem_cons_of_mem _ hrange, hbetween⟩
  | case2 boundaries hshort =>
    match boundaries, hshort with
    | [], _ => cases h
    | [_], _ => cases heven
    | enter :: leave :: rest, hshort => exact absurd rfl (hshort enter leave rest)

theorem covers_lowercase :
    coversFrom 0 alphanumericBeyondAscii.boundaries
      (rangesBetween lowercaseBeyondAscii.boundaries) = true := by
  decide +kernel

/-- Small letters are letters. -/
theorem isAlphanumeric_of_isLowercase {c : Char} (h : isLowercase c = true) :
    isAlphanumeric c = true := by
  unfold isLowercase at h
  unfold isAlphanumeric
  split
  · rename_i hlow
    rw [if_pos hlow] at h
    show (c.isUpper || c.isLower || c.isDigit) = true
    rw [h, Bool.or_true, Bool.true_or]
  · rename_i hbeyond
    rw [if_neg hbeyond] at h
    obtain ⟨range, hrange, hfirst, hlast⟩ := exists_range_of_insideBoundaries (by decide +kernel) h
    exact (insideBoundaries_of_coversFrom covers_lowercase range hrange).2 c.toNat hfirst hlast

/-! ## The first character of a mapping -/

/-- A text that a letter or numeral is mapped to. It starts with one as well, and with the same one
only if nothing follows. -/
def StartsWithLetter (c : Char) (mapped : List Char) : Prop :=
  ∃ first rest, mapped = first :: rest ∧ isAlphanumeric first = true ∧ (first = c → rest = [])

theorem startsWithLetter_singleton {c d : Char} (h : isAlphanumeric d = true) :
    StartsWithLetter c [d] :=
  ⟨d, [], rfl, h, fun _ => rfl⟩

/-- Whether a run goes to one of the ranges, or is short and goes to letters one by one. -/
def CaseRun.mapsToLetters (r : CaseRun) : Bool :=
  letterRanges.any (fun range =>
    range.1.ble (r.first + r.shift).toNat && (r.last + r.shift).toNat.ble range.2) ||
  r.last ≤ r.first + 6 && (List.range 7).all fun k =>
    !r.holds (r.first + k) || isAlphanumeric (Char.ofNat ((r.first + k : Nat) + r.shift).toNat)

/-- A sequence starts with a letter, and not with the character that it stands for. -/
def LeadsToLetter (entry : Nat × List Nat) : Prop :=
  ∃ first ∈ entry.2.head?, first ≠ entry.1 ∧
    (InLetterRange first ∨ first < 0x80 ∧ (Char.ofNat first).isAlphanum = true)

instance (entry : Nat × List Nat) : Decidable (LeadsToLetter entry) :=
  inferInstanceAs (Decidable (∃ first ∈ entry.2.head?, _))

variable {ascii : Char → Char} {sequences : List (Nat × List Nat)} {runs : List CaseRun}

theorem CaseRun.isAlphanumeric_of_mapsToLetters {r : CaseRun} (h : r.mapsToLetters = true) {n : Nat}
    (hholds : r.holds n = true) : isAlphanumeric (Char.ofNat (n + r.shift).toNat) = true := by
  have hbetween : r.first ≤ n ∧ n ≤ r.last := by
    simp only [CaseRun.holds, Bool.and_eq_true, decide_eq_true_eq] at hholds
    exact hholds.1
  simp only [mapsToLetters, Bool.or_eq_true, Bool.and_eq_true, List.any_eq_true, List.all_eq_true,
    Nat.ble_eq, decide_eq_true_eq, Bool.not_eq_true'] at h
  rcases h with ⟨range, hrange, hfirst, hlast⟩ | ⟨hshort, hletters⟩
  · exact InLetterRange.isAlphanumeric ⟨range, hrange, by omega, by omega⟩
  · obtain ⟨k, rfl⟩ := Nat.exists_eq_add_of_le hbetween.1
    exact (hletters k (List.mem_range.mpr (by omega))).resolve_left (by simp [hholds])

theorem LeadsToLetter.startsWithLetter {c : Char} {codes : List Nat}
    (h : LeadsToLetter (c.toNat, codes)) : StartsWithLetter c (codes.map Char.ofNat) := by
  obtain ⟨first, hfirst, hother, hletter⟩ := h
  obtain ⟨rest, rfl⟩ := List.head?_eq_some_iff.mp hfirst
  have hcode : (Char.ofNat first).toNat = first := by
    rcases hletter with hrange | ⟨hlow, -⟩
    · exact hrange.toNat_ofNat
    · exact toNat_ofNat_of_isValidChar (.inl (by omega))
  refine ⟨Char.ofNat first, rest.map Char.ofNat, rfl, ?_, fun hsame => ?_⟩
  · rcases hletter with hrange | ⟨hlow, halphanum⟩
    · exact hrange.isAlphanumeric
    · rwa [Unicode.isAlphanumeric, hcode, if_pos hlow]
  · rw [← hsame, hcode] at hother
    exact absurd rfl hother

/-- A table maps letters and numerals to texts that start so, if it does in ASCII, by its sequences
and by its runs. -/
theorem IsMapping.startsWithLetter
    (hascii : ∀ n < 0x80, (Char.ofNat n).isAlphanum → (ascii (Char.ofNat n)).isAlphanum)
    (hsequences : ∀ entry ∈ sequences, LeadsToLetter entry)
    (hruns : runs.all CaseRun.mapsToLetters = true) {c : Char} {mapped : List Char}
    (hmapped : IsMapping ascii sequences runs c mapped) (hc : isAlphanumeric c = true) :
    StartsWithLetter c mapped := by
  cases hmapped with
  | low hlow =>
    rw [isAlphanumeric, if_pos hlow] at hc
    have halphanum :=
      forall_ascii (P := fun c => c.isAlphanum → (ascii c).isAlphanum) hascii hlow hc
    refine startsWithLetter_singleton ?_
    rwa [isAlphanumeric, if_pos (lt_of_isAlphanum halphanum)]
  | sequence hmem => exact (hsequences _ hmem).startsWithLetter
  | run hmem hholds =>
    exact startsWithLetter_singleton
      (CaseRun.isAlphanumeric_of_mapsToLetters (List.all_eq_true.mp hruns _ hmem) hholds)
  | same => exact startsWithLetter_singleton hc

theorem startsWithLetter_toUpper {c : Char} (hc : isAlphanumeric c = true) :
    StartsWithLetter c (toUpper c) :=
  (isMapping_toUpper c).startsWithLetter (by decide +kernel) (by decide +kernel)
    (by decide +kernel) hc

theorem startsWithLetter_toLower {c : Char} (hc : isAlphanumeric c = true) :
    StartsWithLetter c (toLower c) :=
  (isMapping_toLower c).startsWithLetter (by decide +kernel) (by decide +kernel)
    (by decide +kernel) hc

end ThingTypes.Unicode
