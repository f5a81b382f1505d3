import ThingTypes.Text.Split
import Mathlib.Data.List.Basic

/-
  Texts that are taken apart and put together again. Cutting at a mark is the cutting of the list
  library, whose laws hold here; the other searches find the pattern where it is.
-/

namespace ThingTypes.Text

theorem splitOn_eq_splitOnP (isSeparator : Char → Bool) (cs : List Char) :
    splitOn isSeparator cs = cs.splitOnP isSeparator := by
  induction cs with
  | nil => rfl
  | cons c cs ih =>
    rw [splitOn, List.splitOnP_cons_eq_if_modifyHead, ih]
    cases h : cs.splitOnP isSeparator with
    | nil => exact absurd h (List.splitOnP_ne_nil _ _)
    | cons piece pieces => simp

theorem splitOn_beq (mark : Char) (cs : List Char) : splitOn (· == mark) cs = cs.splitOn mark :=
  splitOn_eq_splitOnP _ cs

/-- The pieces are made of what is no separator. -/
theorem flatten_splitOn (isSeparator : Char → Bool) (cs : List Char) :
    (splitOn isSeparator cs).flatten = cs.filter (!isSeparator ·) := by
  induction cs with
  | nil => rfl
  | cons c cs ih =>
    rw [splitOn, List.filter_cons, ← ih]
    cases splitOn isSeparator cs <;> cases isSeparator c <;> rfl

theorem exists_piece_iff {isSeparator : Char → Bool} {cs : List Char} {c : Char} :
    (∃ piece ∈ splitOn isSeparator cs, c ∈ piece) ↔ c ∈ cs ∧ isSeparator c = false := by
  rw [← List.mem_flatten, flatten_splitOn, List.mem_filter, Bool.not_eq_true']

theorem splitAtLast?_eq_none_iff {mark : Char} {cs : List Char} :
    splitAtLast? mark cs = none ↔ mark ∉ cs := by
  induction cs with
  | nil => simp [splitAtLast?]
  | cons c cs ih =>
    unfold splitAtLast?
    cases h : splitAtLast? mark cs with
    | none =>
      have hcs : mark ∉ cs := ih.mp h
      by_cases hc : c = mark
      · simp [hc]
      · simp [hc, Ne.symm hc, hcs]
    | some sides =>
      have hcs : mark ∈ cs := not_not.mp fun hmark => by simp [ih.mpr hmark] at h
      simp [hcs]

/-- What follows the last mark has none, and both sides with the mark between are the text. -/
theorem splitAtLast?_eq_some {mark : Char} {cs before after : List Char}
    (h : splitAtLast? mark cs = some (before, after)) :
    cs = before ++ mark :: after ∧ mark ∉ after := by
  induction cs generalizing before with
  | nil => simp [splitAtLast?] at h
  | cons c cs ih =>
    unfold splitAtLast? at h
    cases hrest : splitAtLast? mark cs with
    | none =>
      rw [hrest] at h
      by_cases hc : c = mark
      · simp only [hc, if_true, Option.some.injEq, Prod.mk.injEq] at h
        obtain ⟨rfl, rfl⟩ := h
        exact ⟨by simp [hc], splitAtLast?_eq_none_iff.mp hrest⟩
      · simp [hc] at h
    | some sides =>
      obtain ⟨front, back⟩ := sides
      rw [hrest] at h
      simp only [Option.some.injEq, Prod.mk.injEq] at h
      obtain ⟨rfl, rfl⟩ := h
      obtain ⟨rfl, hback⟩ := ih hrest
      exact ⟨rfl, hback⟩

/-- The pieces up to the last mark are all but the last one. -/
theorem splitOn_of_splitAtLast? {mark : Char} {cs before after : List Char}
    (h : splitAtLast? mark cs = some (before, after)) :
    cs.splitOn mark = before.splitOn mark ++ [after] := by
  obtain ⟨rfl, hafter⟩ := splitAtLast?_eq_some h
  rw [List.splitOn_append_cons_self, List.splitOn_eq_singleton hafter]

/-- Cutting a text that has been joined cuts its parts. -/
theorem splitOn_intercalate {mark : Char} {texts : List (List Char)} (hne : texts ≠ []) :
    ([mark].intercalate texts).splitOn mark = texts.flatMap (·.splitOn mark) := by
  induction texts with
  | nil => exact absurd rfl hne
  | cons text rest ih =>
    cases rest with
    | nil => simp
    | cons next rest =>
      rw [List.intercalate_cons_cons, List.append_assoc, List.singleton_append,
        List.splitOn_append_cons_self, ih (List.cons_ne_nil _ _), List.flatMap_cons (x := text)]

/-- A pattern that is found has a text before and a text after it. -/
theorem splitAtFirst?_eq_some {pattern cs before after : List Char}
    (h : splitAtFirst? pattern cs = some (before, after)) : cs = before ++ pattern ++ after := by
  induction cs generalizing before with
  | nil =>
    cases pattern with
    | nil => simp_all [splitAtFirst?]
    | cons => simp [splitAtFirst?] at h
  | cons c cs ih =>
    unfold splitAtFirst? at h
    cases hfound : pattern.isPrefixOf? (c :: cs) with
    | some rest =>
      simp only [hfound, Option.some.injEq, Prod.mk.injEq] at h
      obtain ⟨rfl, rfl⟩ := h
      exact (List.isPrefixOf?_eq_some_iff_append_eq.mp hfound).symm
    | none =>
      simp only [hfound, Option.map_eq_some_iff, Prod.exists, Prod.mk.injEq] at h
      obtain ⟨front, back, hback, rfl, rfl⟩ := h
      rw [ih hback]
      rfl

/-- A pattern is found where there is one. -/
theorem occursIn_iff {pattern cs : List Char} : occursIn pattern cs = true ↔ pattern <:+: cs := by
  constructor
  · intro h
    obtain ⟨⟨before, after⟩, hsome⟩ := Option.isSome_iff_exists.mp h
    exact ⟨before, after, (splitAtFirst?_eq_some hsome).symm⟩
  · intro h
    unfold occursIn
    induction cs with
    | nil => simp [splitAtFirst?, List.eq_nil_of_infix_nil h]
    | cons c cs ih =>
      rw [splitAtFirst?]
      cases hfound : pattern.isPrefixOf? (c :: cs) with
      | some rest => rfl
      | none =>
        rcases List.infix_cons_iff.mp h with ⟨rest, hrest⟩ | hlater
        · rw [List.isPrefixOf?_eq_some_iff_append_eq.mpr hrest] at hfound
          cases hfound
        · simpa using ih hlater

end ThingTypes.Text
