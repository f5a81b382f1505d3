import ThingTypes.Decimal.Shortest
import Mathlib.Algebra.Order.Field.Power
import Mathlib.Algebra.Order.Ring.Rat
import Mathlib.Data.Rat.Cast.Order
import Mathlib.Tactic.FieldSimp
import Mathlib.Tactic.Linarith
import Mathlib.Tactic.NormNum
import Mathlib.Tactic.Positivity
import Mathlib.Tactic.Ring

/-
  The rationals that round to a binary64 magnitude. They lie between the midpoints to its
  neighbours, midpoints included when its significand is even. No rational rounds to two
  magnitudes, and among the multiples of a power of ten that has seventeen digits below the
  magnitude there is always one that rounds to it.
-/

namespace ThingTypes.Binary64

/-! ## Powers with integer exponents -/

theorem zpow_mul_pow_toNat {b : ℚ} (hb : b ≠ 0) (k : ℤ) :
    b ^ k * b ^ (-k).toNat = b ^ k.toNat := by
  rw [← zpow_natCast, ← zpow_natCast, ← zpow_add₀ hb]
  congr 1
  omega

/-! ## The interval of a magnitude -/

/-- A quarter of a unit in the last place. -/
def quarter (x : Binary64) : ℚ := 2 ^ (x.exponent - 2)

theorem quarter_pos (x : Binary64) : 0 < x.quarter := zpow_pos (by norm_num) _

/-- The nearest magnitude to `v` is that of `x`, ties to even. -/
def RoundsFrom (x : Binary64) (v : ℚ) : Prop :=
  if x.significand % 2 = 0 then
    (4 * x.significand - x.gapBelow : ℕ) * x.quarter ≤ v ∧
      v ≤ (4 * x.significand + 2 : ℕ) * x.quarter
  else
    (4 * x.significand - x.gapBelow : ℕ) * x.quarter < v ∧
      v < (4 * x.significand + 2 : ℕ) * x.quarter

/-- Comparing a dyadic with a decimal number over naturals, after clearing denominators. -/
theorem clear_denominators (a n : ℕ) (e k : ℤ) : ∃ d : ℚ, 0 < d ∧
    ((a * 2 ^ e.toNat * 10 ^ (-k).toNat : ℕ) : ℚ) = a * 2 ^ e * d ∧
      ((n * 10 ^ k.toNat * 2 ^ (-e).toNat : ℕ) : ℚ) = n * 10 ^ k * d := by
  have htwo : (2 : ℚ) ^ e * 2 ^ (-e).toNat = 2 ^ e.toNat := zpow_mul_pow_toNat (by norm_num) e
  have hten : (10 : ℚ) ^ k * 10 ^ (-k).toNat = 10 ^ k.toNat := zpow_mul_pow_toNat (by norm_num) k
  refine ⟨2 ^ (-e).toNat * 10 ^ (-k).toNat, by positivity, ?_, ?_⟩
  · push_cast
    rw [← htwo]
    ring
  · push_cast
    rw [← hten]
    ring

theorem dyadic_le_iff (a n : ℕ) (e k : ℤ) :
    a * 2 ^ e.toNat * 10 ^ (-k).toNat ≤ n * 10 ^ k.toNat * 2 ^ (-e).toNat ↔
      (a * 2 ^ e : ℚ) ≤ n * 10 ^ k := by
  obtain ⟨d, hd, ha, hn⟩ := clear_denominators a n e k
  rw [← Nat.cast_le (α := ℚ), ha, hn, mul_le_mul_iff_left₀ hd]

theorem le_dyadic_iff (a n : ℕ) (e k : ℤ) :
    n * 10 ^ k.toNat * 2 ^ (-e).toNat ≤ a * 2 ^ e.toNat * 10 ^ (-k).toNat ↔
      (n * 10 ^ k : ℚ) ≤ a * 2 ^ e := by
  obtain ⟨d, hd, ha, hn⟩ := clear_denominators a n e k
  rw [← Nat.cast_le (α := ℚ), ha, hn, mul_le_mul_iff_left₀ hd]

theorem holds_iff (x : Binary64) (n : ℕ) (k : ℤ) :
    x.roundingInterval.holds n k = true ↔ x.RoundsFrom (n * 10 ^ k) := by
  unfold RoundingInterval.holds roundingInterval RoundsFrom quarter
  by_cases heven : x.significand % 2 = 0
  · simp only [heven, decide_true, if_true, Bool.and_eq_true, decide_eq_true_eq]
    rw [← dyadic_le_iff, ← le_dyadic_iff]
  · simp only [heven, decide_false, if_false, Bool.and_eq_true, decide_eq_true_eq,
      Bool.false_eq_true]
    rw [← lt_iff_lt_of_le_iff_le (le_dyadic_iff _ n _ k),
      ← lt_iff_lt_of_le_iff_le (dyadic_le_iff _ n _ k)]

/-! ## One magnitude only -/

/-- A number that rounds to both of two magnitudes lies where their intervals meet. -/
theorem RoundsFrom.meet {x y : Binary64} {v : ℚ} (hx : x.RoundsFrom v) (hy : y.RoundsFrom v) :
    (4 * y.significand - y.gapBelow : ℕ) * y.quarter ≤ (4 * x.significand + 2 : ℕ) * x.quarter ∧
      (x.significand % 2 ≠ 0 ∨ y.significand % 2 ≠ 0 →
        (4 * y.significand - y.gapBelow : ℕ) * y.quarter <
          (4 * x.significand + 2 : ℕ) * x.quarter) := by
  unfold RoundsFrom at hx hy
  split at hx <;> split at hy
  · rename_i hxe hye
    exact ⟨hy.1.trans hx.2, fun h => absurd h (by simp [hxe, hye])⟩
  · exact ⟨(hy.1.trans_le hx.2).le, fun _ => hy.1.trans_le hx.2⟩
  · exact ⟨(hy.1.trans_lt hx.2).le, fun _ => hy.1.trans_lt hx.2⟩
  · exact ⟨(hy.1.trans hx.2).le, fun _ => hy.1.trans hx.2⟩

theorem gapBelow_le (x : Binary64) : x.gapBelow ≤ 2 := by
  unfold gapBelow
  split <;> omega

theorem not_roundsFrom_of_significand_lt {x y : Binary64} {v : ℚ} (he : x.exponent = y.exponent)
    (hs : x.significand < y.significand) (hx : x.RoundsFrom v) : ¬ y.RoundsFrom v := by
  intro hy
  obtain ⟨hle, hlt⟩ := hx.meet hy
  have hquarter : y.quarter = x.quarter := by rw [quarter, quarter, he]
  have hgap := y.gapBelow_le
  rw [hquarter, mul_le_mul_iff_left₀ x.quarter_pos, Nat.cast_le] at hle
  rw [hquarter, mul_lt_mul_iff_left₀ x.quarter_pos, Nat.cast_lt] at hlt
  omega

theorem two_mul_quarter_le {x y : Binary64} (he : x.exponent < y.exponent) :
    2 * x.quarter ≤ y.quarter := by
  have hpow : (2 : ℚ) * x.quarter = 2 ^ (x.exponent - 2 + 1) := by
    rw [quarter, zpow_add_one₀ (by norm_num), mul_comm]
  rw [hpow]
  exact zpow_le_zpow_right₀ (by norm_num) (by omega)

theorem not_roundsFrom_of_exponent_lt {x y : Binary64} {v : ℚ} (he : x.exponent < y.exponent)
    (hx : x.RoundsFrom v) : ¬ y.RoundsFrom v := by
  intro hy
  obtain ⟨hle, hlt⟩ := hx.meet hy
  have hlow : 2 ^ 54 - 1 ≤ 4 * y.significand - y.gapBelow := by
    have hleast := x.inFormat.least_le
    have hnormal : 2 ^ 52 ≤ y.significand := y.inFormat.normal.resolve_right (by omega)
    unfold gapBelow
    split <;> omega
  generalize 4 * y.significand - y.gapBelow = low at hle hlt hlow
  -- Half of the last place of `y` is at least the last place of `x`.
  have hscale : ((2 * low : ℕ) : ℚ) * x.quarter ≤ low * y.quarter := by
    rw [Nat.cast_mul, Nat.cast_two, mul_right_comm, mul_comm _ (low : ℚ)]
    exact mul_le_mul_of_nonneg_left (two_mul_quarter_le he) low.cast_nonneg
  have hle : 2 * low ≤ 4 * x.significand + 2 := by
    rw [← Nat.cast_le (α := ℚ), ← mul_le_mul_iff_left₀ x.quarter_pos]
    exact hscale.trans hle
  have hlt : x.significand % 2 ≠ 0 → 2 * low < 4 * x.significand + 2 := by
    intro hodd
    rw [← Nat.cast_lt (α := ℚ), ← mul_lt_mul_iff_left₀ x.quarter_pos]
    exact hscale.trans_lt (hlt (.inl hodd))
  have hsmall := x.inFormat.significand_lt
  omega

/-- No number rounds to two magnitudes. -/
theorem RoundsFrom.unique {x y : Binary64} {v : ℚ} (hx : x.RoundsFrom v) (hy : y.RoundsFrom v) :
    x.significand = y.significand ∧ x.exponent = y.exponent := by
  rcases lt_trichotomy x.exponent y.exponent with he | he | he
  · exact absurd hy (not_roundsFrom_of_exponent_lt he hx)
  · rcases lt_trichotomy x.significand y.significand with hs | hs | hs
    · exact absurd hy (not_roundsFrom_of_significand_lt he hs hx)
    · exact ⟨hs, he⟩
    · exact absurd hx (not_roundsFrom_of_significand_lt he.symm hs hy)
  · exact absurd hx (not_roundsFrom_of_exponent_lt he hy)

theorem RoundsFrom.pos {x : Binary64} {v : ℚ} (hx : x.significand ≠ 0) (h : x.RoundsFrom v) :
    0 < v := by
  have hlow : (0 : ℚ) < (4 * x.significand - x.gapBelow : ℕ) * x.quarter := by
    have hgap := x.gapBelow_le
    exact mul_pos (Nat.cast_pos.mpr (by omega)) x.quarter_pos
  unfold RoundsFrom at h
  split at h
  · exact hlow.trans_le h.1
  · exact hlow.trans h.1

/-! ## Seventeen digits -/

/-- The value of a magnitude. -/
def magnitude (x : Binary64) : ℚ := (4 * x.significand : ℕ) * x.quarter

theorem length_toDigits_bounds {n : ℕ} (hn : n ≠ 0) :
    10 ^ ((Nat.toDigits 10 n).length - 1) ≤ n ∧ n < 10 ^ (Nat.toDigits 10 n).length := by
  refine ⟨?_, (Nat.length_toDigits_le_iff (by decide) Nat.length_toDigits_pos).mp le_rfl⟩
  have hpos : 0 < (Nat.toDigits 10 n).length := Nat.length_toDigits_pos
  rcases Nat.eq_zero_or_pos ((Nat.toDigits 10 n).length - 1) with h | h
  · rw [h]
    exact Nat.one_le_iff_ne_zero.mpr hn
  · rw [← Nat.not_lt, ← Nat.length_toDigits_le_iff (by decide) h]
    omega

theorem decimalExponent_reached (num den : ℕ) (hnum : num ≠ 0) (hden : den ≠ 0) :
    den * 10 ^ (decimalExponent num den).toNat ≤ num * 10 ^ (-decimalExponent num den).toNat := by
  unfold decimalExponent
  dsimp only
  split
  · assumption
  · have hlength : 0 < (Nat.toDigits 10 num).length := Nat.length_toDigits_pos
    exact mul_pow_le (by decide) (length_toDigits_bounds hden).2.le (length_toDigits_bounds hnum).1
      (by omega)

variable {x : Binary64} {n : ℕ} {k : ℤ} {v : ℚ}

/-- The first digit stands at the decimal exponent or above. -/
theorem pow_decimalExponent_le (hx : x.significand ≠ 0) :
    (10 : ℚ) ^ decimalExponent x.roundingInterval.value x.roundingInterval.den ≤ x.magnitude := by
  have hvalue : x.roundingInterval.value ≠ 0 :=
    Nat.mul_ne_zero (by omega) (pow_ne_zero _ (by decide))
  have hden : x.roundingInterval.den ≠ 0 := pow_ne_zero _ (by decide)
  have hreached := decimalExponent_reached _ _ hvalue hden
  generalize decimalExponent x.roundingInterval.value x.roundingInterval.den = k at hreached ⊢
  rw [mul_comm, ← one_mul (10 ^ k.toNat)] at hreached
  have h := (le_dyadic_iff (4 * x.significand) 1 (x.exponent - 2) k).mp hreached
  rwa [Nat.cast_one, one_mul] at h

theorem le_low_of_not_roundsFrom (hv : v ≤ x.magnitude) (h : ¬ x.RoundsFrom v) :
    v ≤ (4 * x.significand - x.gapBelow : ℕ) * x.quarter := by
  have hhigh : v < (4 * x.significand + 2 : ℕ) * x.quarter := by
    refine hv.trans_lt (mul_lt_mul_of_pos_right ?_ x.quarter_pos)
    exact_mod_cast Nat.lt_add_of_pos_right Nat.zero_lt_two
  by_contra hlow
  rw [not_le] at hlow
  apply h
  unfold RoundsFrom
  split
  · exact ⟨hlow.le, hhigh.le⟩
  · exact ⟨hlow, hhigh⟩

theorem high_le_of_not_roundsFrom (hv : x.magnitude < v) (h : ¬ x.RoundsFrom v) :
    (4 * x.significand + 2 : ℕ) * x.quarter ≤ v := by
  have hlow : (4 * x.significand - x.gapBelow : ℕ) * x.quarter < v := by
    refine (mul_le_mul_of_nonneg_right ?_ x.quarter_pos.le).trans_lt hv
    exact_mod_cast Nat.sub_le _ _
  by_contra hhigh
  rw [not_le] at hhigh
  apply h
  unfold RoundsFrom
  split
  · exact ⟨hlow.le, hhigh.le⟩
  · exact ⟨hlow, hhigh⟩

/-- If neither of two multiples around the magnitude rounds to it, they are far apart. -/
theorem far_apart {w : ℚ} (hx : x.significand ≠ 0) (hv : v ≤ x.magnitude) (hw : x.magnitude < w)
    (hnv : ¬ x.RoundsFrom v) (hnw : ¬ x.RoundsFrom w) : x.magnitude < (w - v) * 10 ^ 16 := by
  have hlow := le_low_of_not_roundsFrom hv hnv
  have hhigh := high_le_of_not_roundsFrom hw hnw
  have hcount : 4 * x.significand < (x.gapBelow + 2) * 10 ^ 16 := by
    have hsmall := x.inFormat.significand_lt
    unfold gapBelow
    split <;> omega
  have hgap : (4 * x.significand - x.gapBelow) + (x.gapBelow + 2) = 4 * x.significand + 2 := by
    have hle := x.gapBelow_le
    omega
  have hwidth : ((x.gapBelow + 2 : ℕ) : ℚ) * x.quarter ≤ w - v := by
    rw [← hgap, Nat.cast_add, add_mul] at hhigh
    linarith only [hlow, hhigh]
  calc x.magnitude
      < ((x.gapBelow + 2) * 10 ^ 16 : ℕ) * x.quarter :=
        mul_lt_mul_of_pos_right (Nat.cast_lt.mpr hcount) x.quarter_pos
    _ = (x.gapBelow + 2 : ℕ) * x.quarter * 10 ^ 16 := by
        push_cast
        ring
    _ ≤ (w - v) * 10 ^ 16 := mul_le_mul_of_nonneg_right hwidth (by norm_num)

/-- The two multiples of `10 ^ k` around the magnitude. -/
theorem floor_le_magnitude (x : Binary64) (k : ℤ) :
    let floor := x.roundingInterval.value * 10 ^ (-k).toNat /
      (x.roundingInterval.den * 10 ^ k.toNat)
    (floor : ℚ) * 10 ^ k ≤ x.magnitude ∧ x.magnitude < ((floor + 1 : ℕ) : ℚ) * 10 ^ k := by
  intro floor
  have hden : 0 < x.roundingInterval.den * 10 ^ k.toNat :=
    Nat.mul_pos (pow_pos (by decide) _) (pow_pos (by decide) _)
  constructor
  · have h : floor * (x.roundingInterval.den * 10 ^ k.toNat) ≤ _ := Nat.div_mul_le_self _ _
    rw [Nat.mul_comm x.roundingInterval.den, ← Nat.mul_assoc] at h
    exact (le_dyadic_iff (4 * x.significand) floor (x.exponent - 2) k).mp h
  · have h : _ < (floor + 1) * (x.roundingInterval.den * 10 ^ k.toNat) :=
      Nat.lt_mul_of_div_lt (Nat.lt_succ_self _) hden
    rw [Nat.mul_comm x.roundingInterval.den, ← Nat.mul_assoc] at h
    exact (lt_iff_lt_of_le_iff_le
      (le_dyadic_iff (4 * x.significand) (floor + 1) (x.exponent - 2) k)).mp h

theorem neighbour?_holds (h : x.roundingInterval.neighbour? k = some n) :
    x.roundingInterval.holds n k = true := by
  unfold RoundingInterval.neighbour? at h
  dsimp only at h
  split at h
  · rename_i hfloor hceil
    cases h
    have hle := div_le_nearestEven (x.roundingInterval.value * 10 ^ (-k).toNat)
      (x.roundingInterval.den * 10 ^ k.toNat)
    rcases Nat.lt_or_eq_of_le (nearestEven_le_succ (x.roundingInterval.value * 10 ^ (-k).toNat)
      (x.roundingInterval.den * 10 ^ k.toNat)) with hlt | heq
    · rwa [Nat.le_antisymm (Nat.le_of_lt_succ hlt) hle]
    · rwa [heq]
  · cases h
    assumption
  · cases h
    assumption
  · cases h

theorem neighbour?_ne_none (hx : x.significand ≠ 0) (hk : (10 : ℚ) ^ (k + 16) ≤ x.magnitude) :
    x.roundingInterval.neighbour? k ≠ none := by
  intro hnone
  unfold RoundingInterval.neighbour? at hnone
  dsimp only at hnone
  obtain ⟨hle, hlt⟩ := x.floor_le_magnitude k
  generalize x.roundingInterval.value * 10 ^ (-k).toNat /
    (x.roundingInterval.den * 10 ^ k.toNat) = floor at hnone hle hlt
  split at hnone
  · cases hnone
  · cases hnone
  · cases hnone
  · rename_i hfloor hceil
    rw [← Bool.not_eq_true, holds_iff] at hfloor hceil
    have hfar := far_apart hx hle hlt hfloor hceil
    have hstep : ((floor + 1 : ℕ) : ℚ) * 10 ^ k - floor * 10 ^ k = 10 ^ k := by
      push_cast
      ring
    have hpow : (10 : ℚ) ^ (k + 16) = 10 ^ k * 10 ^ 16 := by
      rw [zpow_add₀ (by norm_num)]
      norm_cast
    rw [hstep, ← hpow] at hfar
    exact absurd hk (not_le.mpr hfar)

/-- Seventeen digits suffice, so the search ends at a number that rounds to the magnitude. -/
theorem digitSearch_holds {top : ℤ} (hx : x.significand ≠ 0) (htop : (10 : ℚ) ^ top ≤ x.magnitude)
    (more : ℕ) :
    let found := digitSearch x.roundingInterval top (more + 1)
    x.roundingInterval.holds found.1 found.2 = true := by
  intro found
  induction more with
  | zero =>
    obtain ⟨n, hn⟩ := Option.ne_none_iff_exists'.mp
      (neighbour?_ne_none (k := top - 16) hx (by rwa [Int.sub_add_cancel]))
    have hfound : found = (n, top - 16) := by
      change digitSearch x.roundingInterval top 1 = _
      simp [digitSearch, hn]
    rw [hfound]
    exact neighbour?_holds hn
  | succ more ih =>
    cases hn : x.roundingInterval.neighbour? (top - (17 - (more + 1 + 1 : ℤ))) with
    | some n =>
      have hfound : found = (n, top - (17 - (more + 1 + 1 : ℤ))) := by
        simp [found, digitSearch, hn]
      rw [hfound]
      exact neighbour?_holds hn
    | none =>
      have hfound : found = digitSearch x.roundingInterval top (more + 1) := by
        simp [found, digitSearch, hn]
      rw [hfound]
      exact ih

end ThingTypes.Binary64
