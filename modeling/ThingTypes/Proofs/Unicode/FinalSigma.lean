import Mathlib.Data.List.Infix
import Mathlib.Data.List.TakeWhile
import ThingTypes.Unicode.CaseMapping

/-
  The lower case of a text that another one is put behind. The one rule of context looks ahead, past
  all that case rules look through: a capital sigma behind a letter is final unless a letter
  follows. So what follows a text matters to one character of it at the most, the last that case
  rules do not look through, and only if that is a capital sigma (`lowercase_prefix_append_iff`).
-/

namespace ThingTypes.Unicode

/-! ## Between two texts -/

/-- The lower case of a text between others. `before` holds the characters before it, the last one
first. -/
def lowercaseBetween (before : List Char) : List Char → List Char → List Char
  | [], _ => []
  | c :: rest, after =>
    let mapped :=
      if c = 'Σ' then
        if casedAhead before && !casedAhead (rest ++ after) then ['ς'] else ['σ']
      else toLower c
    mapped ++ lowercaseBetween (c :: before) rest after

theorem lowercaseAfter_append (cs after : List Char) :
    ∀ before, lowercaseAfter before (cs ++ after) =
      lowercaseBetween before cs after ++ lowercaseAfter (cs.reverse ++ before) after := by
  induction cs with
  | nil => exact fun _ => rfl
  | cons c cs ih =>
    intro before
    rw [List.cons_append, lowercaseAfter, ih, lowercaseBetween]
    simp

theorem lowercase_append (cs after : List Char) :
    lowercase (cs ++ after) = lowercaseBetween [] cs after ++ lowercaseAfter cs.reverse after := by
  rw [lowercase, lowercaseAfter_append, List.append_nil]

theorem lowercase_eq (cs : List Char) : lowercase cs = lowercaseBetween [] cs [] := by
  have h := lowercase_append cs []
  rwa [List.append_nil, lowercaseAfter, List.append_nil] at h

theorem lowercaseBetween_append (cs ds after : List Char) :
    ∀ before, lowercaseBetween before (cs ++ ds) after =
      lowercaseBetween before cs (ds ++ after) ++
        lowercaseBetween (cs.reverse ++ before) ds after := by
  induction cs with
  | nil => exact fun _ => rfl
  | cons c cs ih =>
    intro before
    rw [List.cons_append, lowercaseBetween, ih, lowercaseBetween]
    simp

/-! ## What the rule of context sees -/

theorem casedAhead_append (cs ds : List Char) :
    casedAhead (cs ++ ds) = if cs.all isCaseIgnorable then casedAhead ds else casedAhead cs := by
  induction cs with
  | nil => rfl
  | cons c cs ih =>
    cases hc : isCaseIgnorable c with
    | true => simpa [casedAhead, hc] using ih
    | false => simp [casedAhead, hc]

/-- Of what follows a text, only the first character that counts matters. -/
theorem lowercaseBetween_congr {after after' : List Char} (h : casedAhead after = casedAhead after')
    (cs : List Char) :
    ∀ before, lowercaseBetween before cs after = lowercaseBetween before cs after' := by
  induction cs with
  | nil => exact fun _ => rfl
  | cons c cs ih =>
    intro before
    rw [lowercaseBetween, lowercaseBetween, ih, casedAhead_append, casedAhead_append, h]

theorem lowercaseBetween_of_ignorable {cs : List Char} (h : cs.all isCaseIgnorable = true)
    (after : List Char) : ∀ before, lowercaseBetween before cs after = cs.flatMap toLower := by
  induction cs with
  | nil => exact fun _ => rfl
  | cons c cs ih =>
    intro before
    rw [List.all_cons, Bool.and_eq_true] at h
    have hsigma : c ≠ 'Σ' := by
      rintro rfl
      exact absurd h.1 (by decide)
    rw [lowercaseBetween, if_neg hsigma, ih h.2, List.flatMap_cons]

/-! ## The last character that counts -/

/-- Whether the last character that case rules do not look through is a capital sigma behind a
letter. -/
def endsInSigma (cs : List Char) : Bool :=
  match cs.reverse.dropWhile isCaseIgnorable with
  | [] => false
  | c :: front => c = 'Σ' && casedAhead front

theorem ignorable_or_exists_last (cs : List Char) :
    cs.all isCaseIgnorable = true ∨ ∃ front c back, cs = front ++ c :: back ∧
      isCaseIgnorable c = false ∧ back.all isCaseIgnorable = true := by
  induction cs with
  | nil => exact .inl rfl
  | cons d cs ih =>
    rcases ih with h | ⟨front, c, back, rfl, hc, hback⟩
    · cases hd : isCaseIgnorable d with
      | true => exact .inl (by rw [List.all_cons, hd, h]; rfl)
      | false => exact .inr ⟨[], d, cs, rfl, hd, h⟩
    · exact .inr ⟨d :: front, c, back, rfl, hc, hback⟩

theorem endsInSigma_of_ignorable {cs : List Char} (h : cs.all isCaseIgnorable = true) :
    endsInSigma cs = false := by
  have hnone : cs.reverse.dropWhile isCaseIgnorable = [] :=
    List.dropWhile_eq_nil_iff.mpr (by simpa using h)
  rw [endsInSigma, hnone]

variable {front back : List Char} {c : Char}

theorem endsInSigma_of_last (hc : isCaseIgnorable c = false)
    (hback : back.all isCaseIgnorable = true) :
    endsInSigma (front ++ c :: back) = (c = 'Σ' && casedAhead front.reverse) := by
  have hlast : (front ++ c :: back).reverse.dropWhile isCaseIgnorable = c :: front.reverse := by
    have hreverse : ∀ d ∈ back.reverse, isCaseIgnorable d = true := by simpa using hback
    rw [List.reverse_append, List.reverse_cons, List.append_assoc,
      List.dropWhile_append_of_pos hreverse]
    simp [hc]
  rw [endsInSigma, hlast]

/-- What follows a text reaches no further than the last character that counts. -/
theorem lowercaseBetween_of_last (hc : isCaseIgnorable c = false)
    (hback : back.all isCaseIgnorable = true) (after : List Char) :
    lowercaseBetween [] (front ++ c :: back) after =
      lowercaseBetween [] front [c] ++
        (lowercaseBetween front.reverse [c] after ++ back.flatMap toLower) := by
  have hfront : casedAhead (c :: (back ++ after)) = casedAhead [c] := by simp [casedAhead, hc]
  have hlast : casedAhead (back ++ after) = casedAhead after := by
    rw [casedAhead_append, if_pos hback]
  rw [lowercaseBetween_append, List.cons_append, lowercaseBetween_congr hfront,
    ← List.singleton_append (l := back), lowercaseBetween_append, lowercaseBetween_congr hlast,
    lowercaseBetween_of_ignorable hback, List.append_nil]

/-- The lower case of a text begins that of the text with another one behind it, unless the text
ends in a capital sigma that is then final no longer. -/
theorem lowercase_prefix_append_iff (cs after : List Char) :
    lowercase cs <+: lowercase (cs ++ after) ↔ (endsInSigma cs && casedAhead after) = false := by
  rw [lowercase_append, lowercase_eq]
  rcases ignorable_or_exists_last cs with h | ⟨front, c, back, rfl, hc, hback⟩
  · rw [lowercaseBetween_of_ignorable h, lowercaseBetween_of_ignorable h,
      endsInSigma_of_ignorable h]
    exact iff_of_true (List.prefix_append _ _) rfl
  · rw [lowercaseBetween_of_last hc hback, lowercaseBetween_of_last hc hback,
      endsInSigma_of_last hc hback, List.append_assoc, List.prefix_append_right_inj]
    by_cases hsigma : c = 'Σ' ∧ casedAhead front.reverse = true ∧ casedAhead after = true
    · obtain ⟨rfl, hbefore, hafter⟩ := hsigma
      have hnil : casedAhead [] = false := rfl
      -- the sigma is final alone, and is not before a letter
      simp [lowercaseBetween, hbefore, hafter, hnil]
    · have hsame : lowercaseBetween front.reverse [c] [] =
          lowercaseBetween front.reverse [c] after := by
        by_cases hc : c = 'Σ'
        · cases hbefore : casedAhead front.reverse with
          | false => simp [lowercaseBetween, hbefore]
          | true =>
            have hafter : casedAhead after = false := by simpa [hc, hbefore] using hsigma
            exact (lowercaseBetween_congr hafter _ _).symm
        · simp [lowercaseBetween, hc]
      rw [hsame]
      refine iff_of_true ?_ (by simpa using hsigma)
      rw [List.append_assoc]
      exact (List.prefix_append_right_inj _).mpr (List.prefix_append _ _)

end ThingTypes.Unicode
