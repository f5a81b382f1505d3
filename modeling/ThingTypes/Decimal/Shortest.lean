import ThingTypes.Decimal.Binary64

/-
  Decimal text of binary64 numbers. `shortestDigits` finds the fewest digits that still read back
  as the number, and of those the nearest, a tie going to the even one; `DecimalLayout` says where
  the point and the exponent go.
-/

namespace ThingTypes

-- Powers are those of the core library, whatever is imported besides.
attribute [local instance (high)] instPowNat

/-- The decimal magnitude `0.d₁d₂... * 10 ^ (exponent + 1)`, that is `d₁.d₂... * 10 ^ exponent`. -/
@[ext]
structure DecimalDigits where
  digits : List Char
  exponent : Int
deriving Repr, DecidableEq

namespace Binary64

/-- The greatest `k` with `10 ^ k ≤ num / den`, for positive `num` and `den`. -/
def decimalExponent (num den : Nat) : Int :=
  let k : Int := ((Nat.toDigits 10 num).length : Int) - ((Nat.toDigits 10 den).length : Int)
  if den * 10 ^ k.toNat ≤ num * 10 ^ (-k).toNat then k else k - 1

/-- The numbers that round to a positive magnitude, as bounds over a common denominator. The ends
belong to it when the significand is even. -/
structure RoundingInterval where
  low : Nat
  value : Nat
  high : Nat
  den : Nat
  closed : Bool

/-- How far the interval reaches below, in quarters of the last place. The gap below a power of two
is half the gap above. -/
def gapBelow (x : Binary64) : Nat :=
  if x.significand = 2 ^ (52 : Nat) ∧ -1074 < x.exponent then 1 else 2

def roundingInterval (x : Binary64) : RoundingInterval :=
  let m := 4 * x.significand
  let shift := x.exponent - 2
  let scale := 2 ^ shift.toNat
  ⟨(m - x.gapBelow) * scale, m * scale, (m + 2) * scale, 2 ^ (-shift).toNat,
    x.significand % 2 = 0⟩

/-- Whether `n * 10 ^ k` rounds to the magnitude. -/
def RoundingInterval.holds (i : RoundingInterval) (n : Nat) (k : Int) : Bool :=
  let p := n * 10 ^ k.toNat * i.den
  let q := 10 ^ (-k).toNat
  if i.closed then i.low * q ≤ p && p ≤ i.high * q else i.low * q < p && p < i.high * q

/-- The multiple of `10 ^ k` nearest to the magnitude among its two neighbours that round to it. Of
two that are equally near, the even multiple is taken. -/
def RoundingInterval.neighbour? (i : RoundingInterval) (k : Int) : Option Nat :=
  let den := i.den * 10 ^ k.toNat
  let num := i.value * 10 ^ (-k).toNat
  let floor := num / den
  match i.holds floor k, i.holds (floor + 1) k with
  | true, true => some (nearestEven num den)
  | true, false => some floor
  | false, true => some (floor + 1)
  | false, false => none

/-- The first of the counts `17 - more`, ..., `17` of digits that suffices. -/
def digitSearch (i : RoundingInterval) (top : Int) : Nat → Nat × Int
  | 0 => (i.value / i.den, 0)
  | more + 1 =>
    let k := top - (17 - (more + 1 : Int))
    match i.neighbour? k with
    | some n => (n, k)
    | none => digitSearch i top more

/-- The fewest digits that round to the magnitude, and of those the nearest. -/
def shortestDigits (x : Binary64) : DecimalDigits :=
  let i := x.roundingInterval
  let (n, k) := digitSearch i (decimalExponent i.value i.den) 17
  let digits := Nat.toDigits 10 n
  ⟨(digits.reverse.dropWhile (· == '0')).reverse, digits.length - 1 + k⟩

end Binary64

/-- Where point and exponent go. Exponents from `leastPositional` to `greatestPositional` are
written without one; `wholeFraction` adds `.0` to a whole number written so. -/
structure DecimalLayout where
  leastPositional : Int
  greatestPositional : Int
  wholeFraction : Bool

namespace DecimalLayout

def zeros (n : Nat) : List Char := List.replicate n '0'

def positional (l : DecimalLayout) (digits : List Char) (exponent : Int) : List Char :=
  if exponent < 0 then '0' :: '.' :: (zeros (-exponent - 1).toNat ++ digits)
  else
    let whole := exponent.toNat + 1
    if digits.length ≤ whole then
      digits ++ zeros (whole - digits.length) ++ (if l.wholeFraction then ['.', '0'] else [])
    else digits.take whole ++ '.' :: digits.drop whole

/-- The digits with a point behind the first. -/
def mantissa : List Char → List Char
  | d :: e :: rest => d :: '.' :: e :: rest
  | short => short

def scientific (digits : List Char) (exponent : Int) : List Char :=
  let sign := if exponent < 0 then '-' else '+'
  mantissa digits ++ 'e' :: sign :: Nat.toDigits 10 exponent.natAbs

/-- The text of digits, with or without an exponent. -/
def digitsText (l : DecimalLayout) (d : DecimalDigits) : List Char :=
  if l.leastPositional ≤ d.exponent ∧ d.exponent ≤ l.greatestPositional then
    l.positional d.digits d.exponent
  else scientific d.digits d.exponent

/-- The shortest text of the magnitude of a number. -/
def magnitudeText (l : DecimalLayout) (x : Binary64) : List Char :=
  if x.isZero then l.positional ['0'] 0 else l.digitsText x.shortestDigits

/-- The shortest text of a number in this layout. -/
def text (l : DecimalLayout) (x : Binary64) : List Char :=
  if x.negative then '-' :: l.magnitudeText x else l.magnitudeText x

end DecimalLayout

end ThingTypes
