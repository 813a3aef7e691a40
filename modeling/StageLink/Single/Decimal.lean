import StageLink.Single

/-!
# Decimal text of single-precision values

A finite value is written with the fewest decimal digits that read back as the same value, always
positionally and without a trailing point.  Every finite magnitude is a natural number times a
power of two; the reals that round to it form an interval around it, and the search below looks
for the coarsest decimal grid with a point in that interval.  If any point of a grid lies in the
interval then so does one of the two neighbours of the value, so only those two are tried.  All
comparisons are exact, between natural numbers over one common denominator.
-/

namespace StageLink
namespace Single

/-- A finite magnitude as a fraction, with the half-gaps to its neighbours over the same scale. -/
structure Magnitude where
  /-- Four times the value, over the common denominator. -/
  value : Nat
  /-- Distance to the lower end of the reals that round to the value. -/
  below : Nat
  /-- Distance to the upper end of the reals that round to the value. -/
  above : Nat
  /-- The common denominator. -/
  denominator : Nat
  /-- Whether the two ends round to the value as well. -/
  closed : Bool

/-- Decode a finite nonzero pattern.  The gap below a power of two is half the gap above it, except
at the smallest normal value. -/
def toMagnitude (value : Single) : Magnitude :=
  let exponentBits := value.exponentField
  let fraction := value.fractionField
  let significand := if exponentBits = 0 then fraction else fraction + hiddenBit
  let shift := max exponentBits 1
  let scale := if shift ≤ 150 then 1 else Nat.pow 2 (shift - 150)
  { value := 4 * significand * scale
    below := if fraction = 0 ∧ 1 < exponentBits then scale else 2 * scale
    above := 2 * scale
    denominator := if shift ≤ 150 then 4 * Nat.pow 2 (150 - shift) else 4
    closed := significand % 2 = 0 }

/-- A decimal number: a digit string read as a natural number, and a power of ten. -/
structure Decimal where
  digits : Nat
  exponent : Int

namespace Magnitude

/-- The distance between `point · unit` and the value, when the point rounds to the value.  The unit
is a fraction over one. -/
def gap? (magnitude : Magnitude) (point unitNumerator unitDenominator : Nat) : Option Nat :=
  let left := point * unitNumerator * magnitude.denominator
  let right := magnitude.value * unitDenominator
  let inside (distance bound : Nat) : Bool :=
    if magnitude.closed then distance ≤ bound else distance < bound
  if left ≤ right then
    if inside (right - left) (magnitude.below * unitDenominator) then some (right - left) else none
  else
    if inside (left - right) (magnitude.above * unitDenominator) then some (left - right) else none

/-- The point nearest to the value among its two neighbours on the grid of powers of ten with the
given exponent, if one of them rounds to it; of two equally near points the greater. -/
def onGrid? (magnitude : Magnitude) (exponent : Int) : Option Decimal :=
  let unitNumerator := Nat.pow 10 exponent.toNat
  let unitDenominator := Nat.pow 10 (-exponent).toNat
  let lower :=
    magnitude.value * unitDenominator / (unitNumerator * magnitude.denominator)
  let lowerGap := magnitude.gap? lower unitNumerator unitDenominator
  let upperGap := magnitude.gap? (lower + 1) unitNumerator unitDenominator
  match lowerGap, upperGap with
  | some near, some far => some ⟨if near < far then lower else lower + 1, exponent⟩
  | some _, none => some ⟨lower, exponent⟩
  | none, some _ => some ⟨lower + 1, exponent⟩
  | none, none => none

/-- The position of the leading decimal digit, counted down from the greatest one that a finite
value can have. -/
def leadingExponent (magnitude : Magnitude) : Int :=
  let reaches (exponent : Int) : Bool :=
    Nat.pow 10 exponent.toNat * magnitude.denominator
      ≤ magnitude.value * Nat.pow 10 (-exponent).toNat
  match (List.range 84).find? fun step : Nat => reaches (38 - step) with
  | some step => 38 - step
  | none => -46

/-- The shortest decimal that reads back as the value.  Nine digits always suffice. -/
def shortest (magnitude : Magnitude) : Decimal :=
  let leading := magnitude.leadingExponent
  match (List.range 9).findSome? fun count : Nat => magnitude.onGrid? (leading - count) with
  | some decimal => decimal
  | none => ⟨magnitude.value / magnitude.denominator, 0⟩

end Magnitude

/-- Drop the zeros at the end of a digit string. -/
def trimZeros : List Char → List Char
  | [] => []
  | digit :: rest =>
      match trimZeros rest with
      | [] => if digit = '0' then [] else [digit]
      | kept => digit :: kept

/-- Write a decimal positionally, with a point only before a nonzero fraction. -/
def Decimal.toText (decimal : Decimal) : String :=
  let digits := (toString decimal.digits).toList
  if 0 ≤ decimal.exponent then
    String.ofList (digits ++ List.replicate decimal.exponent.toNat '0')
  else
    let places := (-decimal.exponent).toNat
    let padded := List.replicate (places + 1 - digits.length) '0' ++ digits
    let whole := padded.take (padded.length - places)
    match trimZeros (padded.drop (padded.length - places)) with
    | [] => String.ofList whole
    | fraction => String.ofList (whole ++ '.' :: fraction)

/-- The text of a value: a sign, then its shortest positional decimal.  A value that is not a
number has no sign. -/
def toText (value : Single) : String :=
  if value.isNotNumber then
    "NaN"
  else
    let sign := if value.isNegative then "-" else ""
    if !value.isFinite then
      sign ++ "inf"
    else if value.magnitude = zero then
      sign ++ "0"
    else
      sign ++ value.toMagnitude.shortest.toText

end Single
end StageLink
