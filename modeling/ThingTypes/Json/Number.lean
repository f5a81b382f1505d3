import ThingTypes.Json.Basic

/-
  Reading JSON numerals. An integer that fits 64 bits is an integer. Everything else is a
  binary64 number: the digits are taken as a whole number for as long as it fits 64 bits, and the
  result is scaled by a power of ten in binary64 arithmetic. The scaling rounds once more than
  reading the numeral exactly would, so a long numeral may come out one unit in the last place
  away from the nearest number.
-/

namespace ThingTypes

-- Powers are those of the core library, whatever is imported besides.
attribute [local instance (high)] instPowNat

/-- A numeral taken apart. The mark before the exponent is gone; `exponent?` holds its sign and
digits. -/
structure Numeral where
  negative : Bool
  whole : List Char
  fraction? : Option (List Char)
  exponent? : Option (Bool × List Char)

namespace Numeral

/-- The parts of a numeral, if the text is one: no leading zero before another digit, and at least
one digit wherever digits belong. -/
def ofText? (text : List Char) : Option Numeral := do
  let (negative, text) := match text with
    | '-' :: rest => (true, rest)
    | _ => (false, text)
  let (whole, text) := text.span Char.isDigit
  if whole.isEmpty || (whole.length != 1 && whole.head? == some '0') then none
  let (fraction?, text) ← match text with
    | '.' :: rest =>
      let (digits, rest) := rest.span Char.isDigit
      if digits.isEmpty then none else some (some digits, rest)
    | _ => some (none, text)
  match text with
  | [] => some ⟨negative, whole, fraction?, none⟩
  | mark :: rest =>
    if mark != 'e' && mark != 'E' then none
    let (downward, digits) := match rest with
      | '-' :: digits => (true, digits)
      | '+' :: digits => (false, digits)
      | digits => (false, digits)
    if digits.isEmpty || !digits.all Char.isDigit then none
    else some ⟨negative, whole, fraction?, some (downward, digits)⟩

def digitValue (d : Char) : Nat := d.toNat - '0'.toNat

/-- Appends digits to a number while it stays below `2 ^ 64`; the digits left over come second. -/
def absorb (n : Nat) : List Char → Nat × List Char
  | [] => (n, [])
  | d :: ds =>
    let next := 10 * n + digitValue d
    if next < 2 ^ (64 : Nat) then absorb next ds else (n, d :: ds)

/-- The number nearest to `10 ^ k`, for `k` up to 308. -/
def powerOfTen (k : Nat) : Binary64 :=
  (Binary64.ofRatio? (10 ^ k) 1).getD .zero

/-- Scales by a power of ten, or `none` above the range. Exponents below `-308` are worked off
in divisions by `step`, which is `10 ^ 308`. -/
def scaleFrom? (step x : Binary64) (exponent : Int) : Option Binary64 :=
  if -308 ≤ exponent then
    if exponent < 0 then x.div? (powerOfTen exponent.natAbs)
    else if exponent ≤ 308 then x.mul? (powerOfTen exponent.natAbs)
    else if x.isZero then some x
    else none
  else if x.isZero then some x
  else
    match x.div? step with
    | some y => scaleFrom? step y (exponent + 308)
    | none => none
termination_by (-exponent).toNat
decreasing_by omega

def scale? (x : Binary64) (exponent : Int) : Option Binary64 :=
  scaleFrom? (powerOfTen 308) x exponent

/-- The greatest exponent that is counted; a longer one decides by its sign alone. -/
def exponentLimit : Nat := 2 ^ (31 : Nat) - 1

/-- The binary64 value of a numeral, or `none` above the range. -/
def real? (x : Numeral) : Option Binary64 := do
  let (significand, rest) := absorb 0 x.whole
  let (significand, places) := match x.fraction? with
    | none => (significand, 0)
    | some digits =>
      let (n, unused) := absorb significand digits
      (n, digits.length - unused.length)
  let shift : Int := (rest.length : Int) - (places : Int)
  let start ← Binary64.ofRatio? significand 1
  let value ← match x.exponent? with
    | none => scale? start shift
    | some (downward, digits) =>
      let n := digits.foldl (fun n d => 10 * n + digitValue d) 0
      if exponentLimit < n then
        if significand = 0 || downward then some .zero else none
      else if downward then scale? start (max (shift - n) (-(2 ^ (31 : Nat))))
      else scale? start (min (shift + n) (2 ^ (31 : Nat) - 1))
  return value.withSign x.negative

/-- The value of a numeral, or `none` above the range. -/
def value? (x : Numeral) : Option JsonNumber :=
  let whole := x.whole.foldl (fun n d => 10 * n + digitValue d) 0
  let isInteger := x.fraction?.isNone && x.exponent?.isNone
  if isInteger && !x.negative && whole < 2 ^ (64 : Nat) then some (.integer whole)
  else if isInteger && x.negative && 0 < whole && whole ≤ 2 ^ (63 : Nat) then some (.integer (-whole))
  else x.real?.map .real

end Numeral

end ThingTypes
