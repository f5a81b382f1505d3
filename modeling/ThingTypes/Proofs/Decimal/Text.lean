import ThingTypes.Proofs.Decimal.Rounding
import Mathlib.Data.List.Basic
import Mathlib.Data.List.DropRight

/-
  Decimal texts tell numbers apart. The shortest digits of a magnitude round to it, so no other
  magnitude has them, and a layout that always shows a point or an exponent can be read backwards:
  first the sign, then the kind of text, then the digits and the exponent.
-/

namespace ThingTypes

/-! ## Zeros at the ends -/

/-- Without the zeros at its end, a list of digits is as it was before they were appended. -/
theorem rdropWhile_append_zeros {digits : List Char} (h : digits.getLast? ≠ some '0') (n : ℕ) :
    (digits ++ List.replicate n '0').rdropWhile (· == '0') = digits := by
  induction n with
  | zero =>
    rw [List.replicate_zero, List.append_nil, List.rdropWhile_eq_self_iff]
    intro hne hlast
    rw [List.getLast?_eq_some_getLast hne, beq_iff_eq.mp hlast] at h
    exact h rfl
  | succ n ih =>
    rw [List.replicate_succ', ← List.append_assoc, List.rdropWhile_concat_pos _ _ _ (by rfl), ih]

theorem dropWhile_zeros_append {digits : List Char} (h : digits.head? ≠ some '0') (n : ℕ) :
    (List.replicate n '0' ++ digits).dropWhile (· == '0') = digits := by
  induction n with
  | zero =>
    cases digits with
    | nil => rfl
    | cons c cs =>
      have hc : (c == '0') = false := by simpa using h
      rw [List.replicate_zero, List.nil_append, List.dropWhile_cons, hc]
      rfl
  | succ n ih => rw [List.replicate_succ, List.cons_append, List.dropWhile_cons_of_pos (by rfl), ih]

theorem exists_append_zeros (digits : List Char) :
    ∃ n, digits = digits.rdropWhile (· == '0') ++ List.replicate n '0' := by
  refine ⟨(digits.rtakeWhile (· == '0')).length, ?_⟩
  have hzeros : digits.rtakeWhile (· == '0') =
      List.replicate (digits.rtakeWhile (· == '0')).length '0' :=
    List.eq_replicate_of_mem fun c hc => by simpa using List.mem_rtakeWhile_imp hc
  rw [← hzeros, List.rdropWhile_append_rtakeWhile]

theorem head?_toDigits {n : ℕ} (hn : n ≠ 0) : (Nat.toDigits 10 n).head? ≠ some '0' := by
  induction n using Nat.strongRecOn with
  | ind n ih =>
    by_cases hsmall : n < 10
    · rw [Nat.toDigits_of_lt_base hsmall]
      simpa using hn
    · rw [Nat.toDigits_of_base_le (by decide) (by omega),
        List.head?_append_of_ne_nil _ Nat.toDigits_ne_nil]
      exact ih (n / 10) (by omega) (by omega)

/-! ## Digits of a magnitude -/

namespace DecimalDigits

/-- Digits without a zero at either end. -/
structure Normal (d : DecimalDigits) : Prop where
  isDigit : ∀ c ∈ d.digits, c.isDigit = true
  ne_nil : d.digits ≠ []
  head_ne : d.digits.head? ≠ some '0'
  last_ne : d.digits.getLast? ≠ some '0'

/-- The magnitude that the digits write. -/
def value (d : DecimalDigits) : ℚ :=
  Nat.ofDigitChars 10 d.digits 0 * 10 ^ (d.exponent + 1 - d.digits.length)

/-- The digits of a multiple of a power of ten, without zeros at the end. -/
theorem normal_and_value_of_toDigits {n : ℕ} (hn : n ≠ 0) (k : ℤ) :
    let digits := Nat.toDigits 10 n
    let d : DecimalDigits := ⟨digits.rdropWhile (· == '0'), digits.length - 1 + k⟩
    d.Normal ∧ d.value = n * 10 ^ k := by
  intro digits d
  have hhead : digits.head? ≠ some '0' := head?_toDigits hn
  have hvalue : Nat.ofDigitChars 10 digits 0 = n := Nat.ofDigitChars_ten_toDigits
  obtain ⟨zeros, hzeros⟩ := exists_append_zeros digits
  have hne : digits.rdropWhile (· == '0') ≠ [] := by
    intro hnil
    rw [hnil, List.nil_append] at hzeros
    cases zeros with
    | zero => exact Nat.toDigits_ne_nil hzeros
    | succ zeros => exact hhead (by rw [hzeros, List.replicate_succ, List.head?_cons])
  refine ⟨⟨?_, hne, ?_, ?_⟩, ?_⟩
  · intro c hc
    exact Nat.isDigit_of_mem_toDigits (by decide) (by decide)
      ((List.rdropWhile_prefix _ _).subset hc)
  · rwa [hzeros, List.head?_append_of_ne_nil _ hne] at hhead
  · intro hlast
    have hlast' := List.rdropWhile_last_not (· == '0') digits hne
    rw [List.getLast?_eq_some_getLast hne, Option.some.injEq] at hlast
    exact hlast' (beq_iff_eq.mpr hlast)
  · have hlength : digits.length = (digits.rdropWhile (· == '0')).length + zeros := by
      conv_lhs => rw [hzeros]
      rw [List.length_append, List.length_replicate]
    rw [hzeros, Nat.ofDigitChars_append, Nat.ofDigitChars_replicate_zero] at hvalue
    have hexponent : (digits.length - 1 + k : ℤ) + 1 - (digits.rdropWhile (· == '0')).length =
        zeros + k := by
      omega
    rw [value, hexponent, zpow_add₀ (by norm_num), zpow_natCast, ← mul_assoc]
    congr 1
    rw [← hvalue, mul_comm]
    push_cast
    rfl

end DecimalDigits

namespace Binary64

variable {x y : Binary64}

/-- The shortest digits round to the magnitude. -/
theorem shortestDigits_spec (hx : x.significand ≠ 0) :
    x.shortestDigits.Normal ∧ x.RoundsFrom x.shortestDigits.value := by
  have hholds := digitSearch_holds hx (pow_decimalExponent_le hx) 16
  unfold shortestDigits
  dsimp only at hholds ⊢
  generalize digitSearch x.roundingInterval
    (decimalExponent x.roundingInterval.value x.roundingInterval.den) 17 = found at hholds ⊢
  obtain ⟨n, k⟩ := found
  rw [holds_iff] at hholds
  have hn : n ≠ 0 := by
    rintro rfl
    have hpos := hholds.pos hx
    simp at hpos
  obtain ⟨hnormal, hvalue⟩ := DecimalDigits.normal_and_value_of_toDigits hn k
  exact ⟨hnormal, hvalue ▸ hholds⟩

/-- No two magnitudes have the same shortest digits. -/
theorem shortestDigits_inj (hx : x.significand ≠ 0) (hy : y.significand ≠ 0)
    (h : x.shortestDigits = y.shortestDigits) :
    x.significand = y.significand ∧ x.exponent = y.exponent :=
  (shortestDigits_spec hx).2.unique (h ▸ (shortestDigits_spec hy).2)

end Binary64

namespace DecimalLayout

variable {l : DecimalLayout} {d e : DecimalDigits}

/-! ## Positional texts -/

/-- The digits before the point. -/
def wholePart (digits : List Char) (exponent : ℤ) : List Char :=
  if exponent < 0 then ['0']
  else if digits.length ≤ exponent.toNat + 1 then
    digits ++ zeros (exponent.toNat + 1 - digits.length)
  else digits.take (exponent.toNat + 1)

/-- The digits behind the point. -/
def fractionPart (digits : List Char) (exponent : ℤ) : List Char :=
  if exponent < 0 then zeros (-exponent - 1).toNat ++ digits
  else if digits.length ≤ exponent.toNat + 1 then ['0']
  else digits.drop (exponent.toNat + 1)

theorem positional_eq (hl : l.wholeFraction = true) (digits : List Char) (exponent : ℤ) :
    l.positional digits exponent =
      wholePart digits exponent ++ '.' :: fractionPart digits exponent := by
  unfold positional wholePart fractionPart
  dsimp only
  split
  · rfl
  · split
    · rw [List.append_assoc]
    · rfl

theorem isDigit_of_mem_zeros {n : ℕ} {c : Char} (hc : c ∈ zeros n) : c.isDigit = true := by
  rw [List.eq_of_mem_replicate hc]
  rfl

theorem isDigit_of_mem_wholePart (hd : d.Normal) {c : Char}
    (hc : c ∈ wholePart d.digits d.exponent) : c.isDigit = true := by
  unfold wholePart at hc
  split at hc
  · rw [List.mem_singleton.mp hc]
    rfl
  · split at hc
    · rcases List.mem_append.mp hc with hc | hc
      · exact hd.isDigit c hc
      · exact isDigit_of_mem_zeros hc
    · exact hd.isDigit c (List.mem_of_mem_take hc)

theorem isDigit_of_mem_fractionPart (hd : d.Normal) {c : Char}
    (hc : c ∈ fractionPart d.digits d.exponent) : c.isDigit = true := by
  unfold fractionPart at hc
  split at hc
  · rcases List.mem_append.mp hc with hc | hc
    · exact isDigit_of_mem_zeros hc
    · exact hd.isDigit c hc
  · split at hc
    · rw [List.mem_singleton.mp hc]
      rfl
    · exact hd.isDigit c (List.mem_of_mem_drop hc)

/-- Only a magnitude below one starts with a zero. -/
theorem head?_wholePart (hd : d.Normal) :
    (wholePart d.digits d.exponent).head? = some '0' ↔ d.exponent < 0 := by
  unfold wholePart
  split
  · simpa
  · rename_i hexponent
    simp only [hexponent, iff_false]
    split
    · rw [List.head?_append_of_ne_nil _ hd.ne_nil]
      exact hd.head_ne
    · rw [List.head?_take, if_neg (by omega)]
      exact hd.head_ne

theorem length_wholePart (h : 0 ≤ d.exponent) :
    (wholePart d.digits d.exponent).length = d.exponent.toNat + 1 := by
  unfold wholePart
  rw [if_neg (by omega)]
  split
  · rw [List.length_append, zeros, List.length_replicate]
    omega
  · rw [List.length_take]
    omega

/-- Only a whole number has a zero behind the point. -/
theorem fractionPart_eq_zero_iff (hd : d.Normal) (h : 0 ≤ d.exponent) :
    fractionPart d.digits d.exponent = ['0'] ↔ d.digits.length ≤ d.exponent.toNat + 1 := by
  unfold fractionPart
  rw [if_neg (by omega)]
  split
  · simpa
  · rename_i hlong
    simp only [hlong, iff_false]
    intro hdrop
    have hlast : (d.digits.drop (d.exponent.toNat + 1)).getLast? = some '0' := by
      rw [hdrop]
      rfl
    rw [List.getLast?_drop, if_neg (by omega)] at hlast
    exact hd.last_ne hlast

theorem parts_inj (hd : d.Normal) (he : e.Normal)
    (hwhole : wholePart d.digits d.exponent = wholePart e.digits e.exponent)
    (hfraction : fractionPart d.digits d.exponent = fractionPart e.digits e.exponent) : d = e := by
  have hsign : d.exponent < 0 ↔ e.exponent < 0 := by
    rw [← head?_wholePart hd, ← head?_wholePart he, hwhole]
  suffices h : d.exponent = e.exponent ∧ d.digits = e.digits by
    obtain ⟨digits, exponent⟩ := d
    obtain ⟨rfl, rfl⟩ := h
    rfl
  by_cases hneg : d.exponent < 0
  · have hneg' := hsign.mp hneg
    rw [fractionPart, if_pos hneg, fractionPart, if_pos hneg'] at hfraction
    have hdigits : d.digits = e.digits := by
      rw [← dropWhile_zeros_append hd.head_ne (-d.exponent - 1).toNat,
        ← dropWhile_zeros_append he.head_ne (-e.exponent - 1).toNat]
      exact congrArg _ hfraction
    have hlength := congrArg List.length hfraction
    rw [List.length_append, List.length_append, zeros, zeros, List.length_replicate,
      List.length_replicate, hdigits] at hlength
    exact ⟨by omega, hdigits⟩
  · have hpos : 0 ≤ d.exponent := by omega
    have hpos' : 0 ≤ e.exponent := by omega
    have hexponent : d.exponent = e.exponent := by
      have hlength := congrArg List.length hwhole
      rw [length_wholePart hpos, length_wholePart hpos'] at hlength
      omega
    refine ⟨hexponent, ?_⟩
    have hshort := fractionPart_eq_zero_iff hd hpos
    rw [hfraction, fractionPart_eq_zero_iff he hpos'] at hshort
    by_cases hlength : d.digits.length ≤ d.exponent.toNat + 1
    · rw [wholePart, if_neg hneg, if_pos hlength, wholePart, if_neg (by omega),
        if_pos (hshort.mpr hlength)] at hwhole
      rw [← rdropWhile_append_zeros hd.last_ne (d.exponent.toNat + 1 - d.digits.length),
        ← rdropWhile_append_zeros he.last_ne (e.exponent.toNat + 1 - e.digits.length)]
      exact congrArg _ hwhole
    · have hlength' := mt hshort.mp hlength
      rw [wholePart, if_neg hneg, if_neg hlength, wholePart, if_neg (by omega), if_neg hlength']
        at hwhole
      rw [fractionPart, if_neg hneg, if_neg hlength, fractionPart, if_neg (by omega),
        if_neg hlength'] at hfraction
      rw [← List.take_append_drop (d.exponent.toNat + 1) d.digits, hwhole, hfraction,
        List.take_append_drop]

/-- The point is no digit, so it parts a positional text in one way only. -/
theorem parts_of_positional_eq (hl : l.wholeFraction = true) (hd : d.Normal) {digits : List Char}
    {exponent : Int} (h : l.positional d.digits d.exponent = l.positional digits exponent) :
    wholePart d.digits d.exponent = wholePart digits exponent ∧
      fractionPart d.digits d.exponent = fractionPart digits exponent := by
  rw [positional_eq hl, positional_eq hl] at h
  have hpoint : '.' ∉ wholePart d.digits d.exponent :=
    fun hmem => absurd (isDigit_of_mem_wholePart hd hmem) (by decide)
  have hpoint' : '.' ∉ fractionPart d.digits d.exponent :=
    fun hmem => absurd (isDigit_of_mem_fractionPart hd hmem) (by decide)
  obtain ⟨hwhole, -, hfraction⟩ := (List.append_cons_inj_of_notMem hpoint hpoint').mp h
  exact ⟨hwhole, hfraction⟩

theorem positional_inj (hl : l.wholeFraction = true) (hd : d.Normal) (he : e.Normal)
    (h : l.positional d.digits d.exponent = l.positional e.digits e.exponent) : d = e := by
  obtain ⟨hwhole, hfraction⟩ := parts_of_positional_eq hl hd h
  exact parts_inj hd he hwhole hfraction

/-! ## Scientific texts -/

theorem mantissa_injective : Function.Injective mantissa := by
  intro digits digits' h
  rcases digits with _ | ⟨a, _ | ⟨b, rest⟩⟩ <;> rcases digits' with _ | ⟨a', _ | ⟨b', rest'⟩⟩ <;>
    simp_all [mantissa]

theorem mem_mantissa {digits : List Char} {c : Char} (hc : c ∈ mantissa digits) :
    c ∈ digits ∨ c = '.' := by
  rcases digits with _ | ⟨a, _ | ⟨b, rest⟩⟩
  · exact .inl hc
  · exact .inl hc
  · simp only [mantissa, List.mem_cons] at hc ⊢
    tauto

theorem toDigits_injective : Function.Injective (Nat.toDigits 10) := fun m n h => by
  rw [← Nat.ofDigitChars_ten_toDigits (n := m), h, Nat.ofDigitChars_ten_toDigits]

theorem scientific_inj (hd : d.Normal)
    (h : scientific d.digits d.exponent = scientific e.digits e.exponent) : d = e := by
  have hmark : 'e' ∉ mantissa d.digits := by
    intro hmem
    rcases mem_mantissa hmem with hmem | hmem
    · exact absurd (hd.isDigit _ hmem) (by decide)
    · cases hmem
  have hmark' :
      'e' ∉ (if d.exponent < 0 then '-' else '+') :: Nat.toDigits 10 d.exponent.natAbs := by
    intro hmem
    rcases List.mem_cons.mp hmem with hmem | hmem
    · split at hmem <;> cases hmem
    · exact absurd (Nat.isDigit_of_mem_toDigits (by decide) (by decide) hmem) (by decide)
  obtain ⟨hmantissa, -, hexponent⟩ := (List.append_cons_inj_of_notMem hmark hmark').mp h
  obtain ⟨hsign, hdigits⟩ := List.cons.inj hexponent
  have habs := toDigits_injective hdigits
  refine DecimalDigits.ext (mantissa_injective hmantissa) ?_
  split at hsign <;> split at hsign <;> first | omega | cases hsign

/-! ## Numbers -/

theorem positional_ne_scientific (hl : l.wholeFraction = true) (hd : d.Normal) :
    l.positional d.digits d.exponent ≠ scientific e.digits e.exponent := by
  intro h
  have hmem : 'e' ∈ l.positional d.digits d.exponent := by
    rw [h]
    exact List.mem_append_right _ List.mem_cons_self
  rw [positional_eq hl] at hmem
  rcases List.mem_append.mp hmem with hmem | hmem
  · exact absurd (isDigit_of_mem_wholePart hd hmem) (by decide)
  · rcases List.mem_cons.mp hmem with hmem | hmem
    · cases hmem
    · exact absurd (isDigit_of_mem_fractionPart hd hmem) (by decide)

theorem digitsText_inj (hl : l.wholeFraction = true) (hd : d.Normal) (he : e.Normal)
    (h : l.digitsText d = l.digitsText e) : d = e := by
  unfold digitsText at h
  split at h <;> split at h
  · exact positional_inj hl hd he h
  · exact absurd h (positional_ne_scientific hl hd)
  · exact absurd h.symm (positional_ne_scientific hl he)
  · exact scientific_inj hd h

theorem positional_zero (hl : l.wholeFraction = true) : l.positional ['0'] 0 = ['0', '.', '0'] := by
  rw [positional_eq hl]
  rfl

theorem digitsText_ne_zero (hl : l.wholeFraction = true) (hd : d.Normal) :
    l.digitsText d ≠ l.positional ['0'] 0 := by
  intro h
  unfold digitsText at h
  split at h
  · obtain ⟨hwhole, hfraction⟩ := parts_of_positional_eq hl hd h
    have hsmall : d.exponent < 0 := (head?_wholePart hd).mp (by rw [hwhole]; rfl)
    rw [fractionPart, if_pos hsmall] at hfraction
    have hlast := congrArg List.getLast? hfraction
    rw [List.getLast?_append_of_ne_nil _ hd.ne_nil] at hlast
    exact hd.last_ne hlast
  · rw [positional_zero hl] at h
    have hmem : 'e' ∈ scientific d.digits d.exponent :=
      List.mem_append_right _ List.mem_cons_self
    rw [h] at hmem
    exact absurd hmem (by decide)

theorem significand_ne_zero {x : Binary64} (hx : ¬ x.isZero = true) : x.significand ≠ 0 := by
  simpa [Binary64.isZero] using hx

theorem magnitudeText_inj (hl : l.wholeFraction = true) {x y : Binary64}
    (h : l.magnitudeText x = l.magnitudeText y) :
    x.significand = y.significand ∧ x.exponent = y.exponent := by
  unfold magnitudeText at h
  have hzero {z : Binary64} (hz : z.isZero = true) : z.significand = 0 ∧ z.exponent = -1074 := by
    have hs : z.significand = 0 := by simpa [Binary64.isZero] using hz
    exact ⟨hs, z.inFormat.normal.resolve_left (by omega)⟩
  split at h <;> split at h <;> rename_i hx hy
  · rw [(hzero hx).1, (hzero hx).2, (hzero hy).1, (hzero hy).2]
    exact ⟨rfl, rfl⟩
  · have hnormal := (Binary64.shortestDigits_spec (significand_ne_zero hy)).1
    exact absurd h.symm (digitsText_ne_zero hl hnormal)
  · exact absurd h (digitsText_ne_zero hl (Binary64.shortestDigits_spec (significand_ne_zero hx)).1)
  · have hdigits := digitsText_inj hl (Binary64.shortestDigits_spec (significand_ne_zero hx)).1
      (Binary64.shortestDigits_spec (significand_ne_zero hy)).1 h
    exact Binary64.shortestDigits_inj (significand_ne_zero hx) (significand_ne_zero hy) hdigits

theorem mem_digitsText (hl : l.wholeFraction = true) (hd : d.Normal) {c : Char}
    (hc : c ∈ l.digitsText d) : c.isDigit = true ∨ c ∈ ['.', 'e', '+', '-'] := by
  unfold digitsText at hc
  split at hc
  · rw [positional_eq hl] at hc
    rcases List.mem_append.mp hc with hc | hc
    · exact .inl (isDigit_of_mem_wholePart hd hc)
    · rcases List.mem_cons.mp hc with rfl | hc
      · exact .inr (by decide)
      · exact .inl (isDigit_of_mem_fractionPart hd hc)
  · rcases List.mem_append.mp hc with hc | hc
    · rcases mem_mantissa hc with hc | rfl
      · exact .inl (hd.isDigit c hc)
      · exact .inr (by decide)
    · rcases List.mem_cons.mp hc with rfl | hc
      · exact .inr (by decide)
      · rcases List.mem_cons.mp hc with rfl | hc
        · right
          split <;> decide
        · exact .inl (Nat.isDigit_of_mem_toDigits (by decide) (by decide) hc)

theorem mark_mem_digitsText (hl : l.wholeFraction = true) (d : DecimalDigits) :
    '.' ∈ l.digitsText d ∨ 'e' ∈ l.digitsText d := by
  unfold digitsText
  split
  · rw [positional_eq hl]
    exact .inl (List.mem_append_right _ List.mem_cons_self)
  · exact .inr (List.mem_append_right _ List.mem_cons_self)

/-- The text of digits starts with a digit. -/
theorem exists_digitsText_eq_cons (hl : l.wholeFraction = true) (hd : d.Normal) :
    ∃ c rest, l.digitsText d = c :: rest ∧ c.isDigit = true := by
  unfold digitsText
  split
  · have hne : wholePart d.digits d.exponent ≠ [] := by
      unfold wholePart
      split
      · exact List.cons_ne_nil _ _
      · split
        · exact List.append_ne_nil_of_left_ne_nil hd.ne_nil _
        · simpa using hd.ne_nil
    obtain ⟨c, rest, hwhole⟩ := List.exists_cons_of_ne_nil hne
    refine ⟨c, _, by rw [positional_eq hl, hwhole, List.cons_append], ?_⟩
    exact isDigit_of_mem_wholePart hd (hwhole ▸ List.mem_cons_self)
  · obtain ⟨c, rest, hdigits⟩ := List.exists_cons_of_ne_nil hd.ne_nil
    have hc : c.isDigit = true := hd.isDigit c (hdigits ▸ List.mem_cons_self)
    rw [scientific, hdigits]
    cases rest with
    | nil => exact ⟨c, _, rfl, hc⟩
    | cons c' rest => exact ⟨c, _, rfl, hc⟩

theorem exists_magnitudeText_eq_cons (hl : l.wholeFraction = true) (x : Binary64) :
    ∃ c rest, l.magnitudeText x = c :: rest ∧ c.isDigit = true := by
  unfold magnitudeText
  split
  · exact ⟨'0', ['.', '0'], positional_zero hl, rfl⟩
  · rename_i hx
    exact exists_digitsText_eq_cons hl (Binary64.shortestDigits_spec (significand_ne_zero hx)).1

/-- What the texts of numbers are made of. -/
theorem mem_text (hl : l.wholeFraction = true) {x : Binary64} {c : Char} (hc : c ∈ l.text x) :
    c.isDigit = true ∨ c ∈ ['.', 'e', '+', '-'] := by
  have hmagnitude (hc : c ∈ l.magnitudeText x) : c.isDigit = true ∨ c ∈ ['.', 'e', '+', '-'] := by
    unfold magnitudeText at hc
    split at hc
    · rw [positional_zero hl] at hc
      simp only [List.mem_cons, List.not_mem_nil, or_false] at hc
      rcases hc with rfl | rfl | rfl <;> decide
    · rename_i hx
      exact mem_digitsText hl (Binary64.shortestDigits_spec (significand_ne_zero hx)).1 hc
  unfold text at hc
  split at hc
  · rcases List.mem_cons.mp hc with rfl | hc
    · exact .inr (by decide)
    · exact hmagnitude hc
  · exact hmagnitude hc

/-- A point or an exponent tells the text of a number from that of an integer. -/
theorem mark_mem_text (hl : l.wholeFraction = true) (x : Binary64) :
    '.' ∈ l.text x ∨ 'e' ∈ l.text x := by
  have hmagnitude : '.' ∈ l.magnitudeText x ∨ 'e' ∈ l.magnitudeText x := by
    unfold magnitudeText
    split
    · rw [positional_zero hl]
      exact .inl (by decide)
    · exact mark_mem_digitsText hl _
  unfold text
  split
  · exact hmagnitude.imp (List.mem_cons_of_mem _) (List.mem_cons_of_mem _)
  · exact hmagnitude

/-- The texts of two numbers differ. -/
theorem text_injective (hl : l.wholeFraction = true) : Function.Injective l.text := by
  intro x y h
  have hmagnitude : x.negative = y.negative ∧ l.magnitudeText x = l.magnitudeText y := by
    obtain ⟨c, rest, hx, hc⟩ := exists_magnitudeText_eq_cons hl x
    obtain ⟨c', rest', hy, hc'⟩ := exists_magnitudeText_eq_cons hl y
    unfold text at h
    rw [hx, hy] at h ⊢
    cases hxn : x.negative <;> cases hyn : y.negative <;> rw [hxn, hyn] at h
    · exact ⟨rfl, h⟩
    · cases h
      cases hc
    · cases h
      cases hc'
    · exact ⟨rfl, List.tail_eq_of_cons_eq h⟩
  obtain ⟨hsignificand, hexponent⟩ := magnitudeText_inj hl hmagnitude.2
  obtain ⟨negative, significand, exponent, _⟩ := x
  obtain ⟨negative', significand', exponent', _⟩ := y
  obtain ⟨rfl, -⟩ := hmagnitude
  cases hsignificand
  cases hexponent
  rfl

end DecimalLayout

end ThingTypes
