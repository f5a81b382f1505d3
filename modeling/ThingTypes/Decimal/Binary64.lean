/-
  Finite numbers of the binary64 format as sign, significand and power of two, and the rounding
  of a ratio of naturals to the nearest of them. All of it is exact arithmetic on naturals. A
  number carries the proof that its significand and exponent are those of the format, so equal
  numbers of one sign are equal values.
-/

namespace ThingTypes

-- Powers are those of the core library, whatever is imported besides.
attribute [local instance (high)] instPowNat

/-- The magnitude `significand * 2 ^ exponent` is in the range of the format and written with as
many of the 53 bits as the least exponent allows. No magnitude can be written so in two ways. -/
structure InBinary64 (significand : Nat) (exponent : Int) : Prop where
  significand_lt : significand < 2 ^ (53 : Nat)
  least_le : -1074 ≤ exponent
  le_greatest : exponent ≤ 971
  normal : 2 ^ (52 : Nat) ≤ significand ∨ exponent = -1074

/-- The number `± significand * 2 ^ exponent`. -/
structure Binary64 where
  negative : Bool
  significand : Nat
  exponent : Int
  inFormat : InBinary64 significand exponent
deriving Repr, DecidableEq

/-- The nearest natural to `num / den`; a tie goes to the even one. -/
def nearestEven (num den : Nat) : Nat :=
  let q := num / den
  let twice := 2 * (num % den)
  if twice < den then q
  else if den < twice then q + 1
  else if q % 2 = 0 then q else q + 1

theorem div_le_nearestEven (num den : Nat) : num / den ≤ nearestEven num den := by
  unfold nearestEven
  dsimp only
  split
  · exact Nat.le_refl _
  · split
    · exact Nat.le_succ _
    · split
      · exact Nat.le_refl _
      · exact Nat.le_succ _

theorem nearestEven_le_succ (num den : Nat) : nearestEven num den ≤ num / den + 1 := by
  unfold nearestEven
  dsimp only
  split
  · exact Nat.le_succ _
  · split
    · exact Nat.le_refl _
    · split
      · exact Nat.le_succ _
      · exact Nat.le_refl _

namespace Binary64

def zero : Binary64 := ⟨false, 0, -1074, by decide, by decide, by decide, .inr rfl⟩

def isZero (x : Binary64) : Bool := x.significand = 0

def neg (x : Binary64) : Binary64 := { x with negative := !x.negative }

/-- The greatest `k` with `2 ^ k ≤ num / den`, for positive `num` and `den`. -/
def binaryExponent (num den : Nat) : Int :=
  let k : Int := (num.log2 : Int) - (den.log2 : Int)
  if den * 2 ^ k.toNat ≤ num * 2 ^ (-k).toNat then k else k - 1

/-- The significand of `num / den` at an exponent. -/
def significandAt (num den : Nat) (exponent : Int) : Nat :=
  nearestEven (num * 2 ^ (-exponent).toNat) (den * 2 ^ exponent.toNat)

/-! ### The significand fits -/

/-- In a comparison of two products only the difference of the exponents counts. -/
theorem mul_pow_lt_iff {base x y p q r t : Nat} (hbase : 0 < base) (h : p + t = r + q) :
    x * base ^ p < y * base ^ q ↔ x * base ^ r < y * base ^ t := by
  rw [← Nat.mul_lt_mul_right (a := base ^ t) (Nat.pow_pos hbase),
    ← Nat.mul_lt_mul_right (a := base ^ q) (Nat.pow_pos hbase) (b := x * base ^ r)]
  simp only [Nat.mul_assoc, ← Nat.pow_add]
  rw [h, Nat.add_comm t q]

theorem mul_pow_le {base x y a b p q : Nat} (hbase : 0 < base) (hx : x ≤ base ^ a)
    (hy : base ^ b ≤ y) (h : a + p ≤ b + q) : x * base ^ p ≤ y * base ^ q :=
  calc x * base ^ p
      ≤ base ^ a * base ^ p := Nat.mul_le_mul_right _ hx
    _ = base ^ (a + p) := (Nat.pow_add ..).symm
    _ ≤ base ^ (b + q) := Nat.pow_le_pow_right hbase h
    _ = base ^ b * base ^ q := Nat.pow_add ..
    _ ≤ y * base ^ q := Nat.mul_le_mul_right _ hy

theorem binaryExponent_reached {num : Nat} (den : Nat) (hnum : num ≠ 0) :
    den * 2 ^ (binaryExponent num den).toNat ≤ num * 2 ^ (-binaryExponent num den).toNat := by
  unfold binaryExponent
  dsimp only
  split
  · assumption
  · have hnum := Nat.log2_self_le hnum
    have hden := Nat.le_of_lt (Nat.lt_log2_self (n := den))
    exact mul_pow_le (by decide) hden hnum (by omega)

theorem binaryExponent_greatest (num : Nat) {den : Nat} (hden : den ≠ 0) :
    num * 2 ^ (-(binaryExponent num den + 1)).toNat <
      den * 2 ^ (binaryExponent num den + 1).toNat := by
  unfold binaryExponent
  dsimp only
  split
  · have hnum := Nat.lt_log2_self (n := num)
    have hden := Nat.log2_self_le hden
    refine Nat.lt_of_lt_of_le (Nat.mul_lt_mul_of_pos_right hnum (Nat.two_pow_pos _)) ?_
    exact mul_pow_le (by decide) (Nat.le_refl _) hden (by omega)
  · rename_i hreached
    rw [Int.sub_add_cancel]
    exact Nat.not_le.mp hreached

variable {num den : Nat}

theorem significandAt_le {exponent : Int} (hden : den ≠ 0)
    (h : binaryExponent num den - 52 ≤ exponent) :
    significandAt num den exponent ≤ 2 ^ (53 : Nat) := by
  have hgreatest := binaryExponent_greatest num hden
  generalize hk : binaryExponent num den + 1 = k at hgreatest
  have hscaled : num * 2 ^ (-exponent).toNat < den * 2 ^ (exponent.toNat + 53) := by
    rw [mul_pow_lt_iff (r := (-k).toNat) (t := k.toNat + (exponent + 53 - k).toNat) (by decide)
      (by omega)]
    exact Nat.lt_of_lt_of_le hgreatest
      (Nat.mul_le_mul_left _ (Nat.pow_le_pow_right (by decide) (Nat.le_add_right ..)))
  refine Nat.le_trans (nearestEven_le_succ _ _) (Nat.succ_le_of_lt ?_)
  rw [Nat.div_lt_iff_lt_mul (Nat.mul_pos (Nat.pos_of_ne_zero hden) (Nat.two_pow_pos _))]
  rwa [Nat.pow_add, ← Nat.mul_assoc, Nat.mul_comm _ (2 ^ (53 : Nat))] at hscaled

theorem le_significandAt (hnum : num ≠ 0) (hden : den ≠ 0) :
    2 ^ (52 : Nat) ≤ significandAt num den (binaryExponent num den - 52) := by
  have hreached := binaryExponent_reached den hnum
  generalize binaryExponent num den = k at hreached ⊢
  rw [← Nat.not_lt, mul_pow_lt_iff (r := (-(k - 52)).toNat) (t := (k - 52).toNat + 52) (by decide)
    (by omega), Nat.not_lt, Nat.pow_add, ← Nat.mul_assoc, Nat.mul_comm _ (2 ^ (52 : Nat))] at hreached
  refine Nat.le_trans ?_ (div_le_nearestEven _ _)
  rwa [Nat.le_div_iff_mul_le (Nat.mul_pos (Nat.pos_of_ne_zero hden) (Nat.two_pow_pos _))]

/-- The least exponent that leaves room for the leading bit of `num / den`, or the least of all. -/
def roundingExponent (num den : Nat) : Int :=
  max (binaryExponent num den - 52) (-1074)

theorem inBinary64_of_round (hnum : num ≠ 0) (hden : den ≠ 0)
    (hsmall : significandAt num den (roundingExponent num den) ≠ 2 ^ (53 : Nat))
    (hrange : ¬ 971 < roundingExponent num den) :
    InBinary64 (significandAt num den (roundingExponent num den)) (roundingExponent num den) where
  significand_lt :=
    Nat.lt_of_le_of_ne (significandAt_le hden (Int.le_max_left ..)) hsmall
  least_le := Int.le_max_right ..
  le_greatest := Int.not_lt.mp hrange
  normal := by
    unfold roundingExponent
    rcases Int.le_total (binaryExponent num den - 52) (-1074) with h | h
    · exact .inr (Int.max_eq_right h)
    · rw [Int.max_eq_left h]
      exact .inl (le_significandAt hnum hden)

theorem inBinary64_of_carry (hrange : ¬ 971 < roundingExponent num den + 1) :
    InBinary64 (2 ^ (52 : Nat)) (roundingExponent num den + 1) where
  significand_lt := by decide
  least_le := Int.le_trans (Int.le_max_right ..) (Int.le_of_lt (Int.lt_succ _))
  le_greatest := Int.not_lt.mp hrange
  normal := .inl (Nat.le_refl _)

/-- The magnitude nearest to `num / den`, ties to even, or `none` above the range. Rounding up to
one more bit moves to the next exponent. -/
def ofRatio? (num den : Nat) : Option Binary64 :=
  if hnum : num = 0 then some zero
  else if hden : den = 0 then none
  else
    let exponent := roundingExponent num den
    let significand := significandAt num den exponent
    if hsmall : significand = 2 ^ (53 : Nat) then
      if hrange : 971 < exponent + 1 then none
      else some ⟨false, 2 ^ (52 : Nat), exponent + 1, inBinary64_of_carry hrange⟩
    else if hrange : 971 < exponent then none
    else some ⟨false, significand, exponent, inBinary64_of_round hnum hden hsmall hrange⟩

/-- The magnitude as a ratio: numerator and denominator. -/
def ratio (x : Binary64) : Nat × Nat :=
  if 0 ≤ x.exponent then (x.significand * 2 ^ x.exponent.toNat, 1)
  else (x.significand, 2 ^ (-x.exponent).toNat)

def withSign (negative : Bool) (x : Binary64) : Binary64 := { x with negative }

/-- The rounded product, or `none` above the range. -/
def mul? (x y : Binary64) : Option Binary64 :=
  let (a, b) := x.ratio
  let (c, d) := y.ratio
  (ofRatio? (a * c) (b * d)).map (withSign (x.negative != y.negative))

/-- The rounded quotient by a number other than zero, or `none` above the range. -/
def div? (x y : Binary64) : Option Binary64 :=
  let (a, b) := x.ratio
  let (c, d) := y.ratio
  (ofRatio? (a * d) (b * c)).map (withSign (x.negative != y.negative))

/-- The number nearest to `mantissa * 10 ^ exponent`, or `none` above the range. Exponents far
outside the range are settled by the count of digits, before any power is taken. -/
def ofDecimal? (mantissa : Nat) (exponent : Int) : Option Binary64 :=
  let magnitude : Int := (Nat.toDigits 10 mantissa).length + exponent
  if mantissa = 0 ∨ magnitude < -400 then some zero
  else if 400 < magnitude then none
  else if 0 ≤ exponent then ofRatio? (mantissa * 10 ^ exponent.toNat) 1
  else ofRatio? mantissa (10 ^ (-exponent).toNat)

end Binary64

end ThingTypes
