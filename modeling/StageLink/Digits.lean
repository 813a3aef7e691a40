/-!
# Decimal digits

Runs of decimal digits and the numbers they stand for.
-/

namespace StageLink
namespace Digits

/-- The number that some decimal digits stand for. -/
def value (digits : List Char) : Nat :=
  digits.foldl (fun number digit => 10 * number + (digit.toNat - '0'.toNat)) 0

/-- Whether these are decimal digits, at least one. -/
def areDigits (chars : List Char) : Bool := !chars.isEmpty && chars.all Char.isDigit

@[simp]
theorem value_nil : value [] = 0 := rfl

/-- A further digit shifts the digits before it by one place. -/
@[simp]
theorem value_concat (digits : List Char) (digit : Char) :
    value (digits ++ [digit]) = 10 * value digits + (digit.toNat - '0'.toNat) := by
  simp [value]

end Digits
end StageLink
