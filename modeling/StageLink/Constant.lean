import StageLink.Single.Decimal
import StageLink.Ty.Text

/-!
# Constants

A constant is a type together with components of one kind, or with the constants of its elements.
Two comparisons are offered: `sameValue` tells apart everything that has different bits, and
`numericallyEqual` compares float components as numbers.
-/

namespace StageLink

/-- The components of a constant, or the elements of an aggregate. -/
inductive Payload (Element : Type) where
  | bools (components : List Bool)
  | ints (components : List Int32)
  | uints (components : List UInt32)
  /-- Scalar, vector or column-major matrix components. -/
  | floats (components : List Single)
  /-- Array elements or record fields, in order. -/
  | composite (elements : List Element)

/-- A typed constant value. -/
inductive Constant where
  | mk (ty : Ty) (value : Payload Constant)

namespace Constant

/-- The type of a constant. -/
def ty : Constant → Ty
  | mk ty _ => ty

/-- The components of a constant. -/
def value : Constant → Payload Constant
  | mk _ value => value

/-- A boolean constant. -/
def bool (value : Bool) : Constant := ⟨.bool, .bools [value]⟩

/-- A signed integer constant. -/
def int (value : Int32) : Constant := ⟨.int, .ints [value]⟩

/-- An unsigned integer constant. -/
def uint (value : UInt32) : Constant := ⟨.uint, .uints [value]⟩

def float (value : Single) : Constant := ⟨.float, .floats [value]⟩

/-- A float vector or matrix constant. -/
def floats (ty : Ty) (components : List Single) : Constant := ⟨ty, .floats components⟩

/-- The value of a single boolean. -/
def asBool? : Constant → Option Bool
  | ⟨_, .bools [value]⟩ => some value
  | _ => none

/-- The value of a single integer that is not negative. -/
def asIndex? : Constant → Option Nat
  | ⟨_, .ints [value]⟩ => if value.toInt < 0 then none else some value.toInt.toNat
  | ⟨_, .uints [value]⟩ => some value.toNat
  | _ => none

mutual

/-- Same type and same bits in every component. -/
def sameValue : Constant → Constant → Bool
  | ⟨ty, .bools left⟩, ⟨ty', .bools right⟩ => ty = ty' ∧ left = right
  | ⟨ty, .ints left⟩, ⟨ty', .ints right⟩ => ty = ty' ∧ left = right
  | ⟨ty, .uints left⟩, ⟨ty', .uints right⟩ => ty = ty' ∧ left = right
  | ⟨ty, .floats left⟩, ⟨ty', .floats right⟩ => ty = ty' ∧ left = right
  | ⟨ty, .composite left⟩, ⟨ty', .composite right⟩ => ty = ty' && sameValues left right
  | _, _ => false

/-- `sameValue` of each pair of two lists of the same length. -/
def sameValues : List Constant → List Constant → Bool
  | [], [] => true
  | left :: lefts, right :: rights => sameValue left right && sameValues lefts rights
  | _, _ => false

end

mutual

/-- Two constants have the same value exactly if they are the same constant. -/
theorem sameValue_iff : (left right : Constant) → (sameValue left right = true ↔ left = right)
  | ⟨_, .bools _⟩, ⟨_, right⟩ => by cases right <;> simp [sameValue]
  | ⟨_, .ints _⟩, ⟨_, right⟩ => by cases right <;> simp [sameValue]
  | ⟨_, .uints _⟩, ⟨_, right⟩ => by cases right <;> simp [sameValue]
  | ⟨_, .floats _⟩, ⟨_, right⟩ => by cases right <;> simp [sameValue]
  | ⟨_, .composite left⟩, ⟨_, right⟩ => by
      cases right <;> simp [sameValue, sameValues_iff left]

theorem sameValues_iff :
    (left right : List Constant) → (sameValues left right = true ↔ left = right)
  | [], right => by cases right <;> simp [sameValues]
  | left :: lefts, right => by
      cases right <;> simp [sameValues, sameValue_iff left, sameValues_iff lefts]

end

instance : DecidableEq Constant := fun left right =>
  decidable_of_iff _ (sameValue_iff left right)

mutual

/-- Equality with float components compared as numbers, so that it is not reflexive. -/
def numericallyEqual : Constant → Constant → Bool
  | ⟨ty, .bools left⟩, ⟨ty', .bools right⟩ => ty = ty' ∧ left = right
  | ⟨ty, .ints left⟩, ⟨ty', .ints right⟩ => ty = ty' ∧ left = right
  | ⟨ty, .uints left⟩, ⟨ty', .uints right⟩ => ty = ty' ∧ left = right
  | ⟨ty, .floats left⟩, ⟨ty', .floats right⟩ =>
      ty = ty' && left.length = right.length && (left.zip right).all fun pair =>
        pair.1.equal pair.2
  | ⟨ty, .composite left⟩, ⟨ty', .composite right⟩ => ty = ty' && numericallyEqualAll left right
  | _, _ => false

/-- `numericallyEqual` of each pair of two lists of the same length. -/
def numericallyEqualAll : List Constant → List Constant → Bool
  | [], [] => true
  | left :: lefts, right :: rights =>
      numericallyEqual left right && numericallyEqualAll lefts rights
  | _, _ => false

end

/-! ## Text -/

/-- A list of component texts with blanks between them. -/
def spaced (parts : List String) : String := String.intercalate " " parts

mutual

/-- The text of a constant: its type and its components. -/
def text : Constant → String
  | ⟨ty, .bools components⟩ =>
      s!"(constant {ty.text} ({spaced (components.map fun value => toString value)}))"
  | ⟨ty, .ints components⟩ =>
      s!"(constant {ty.text} ({spaced (components.map fun value => toString value.toInt)}))"
  | ⟨ty, .uints components⟩ =>
      s!"(constant {ty.text} ({spaced (components.map fun value => toString value.toNat)}))"
  | ⟨ty, .floats components⟩ =>
      s!"(constant {ty.text} ({spaced (components.map Single.toText)}))"
  | ⟨ty, .composite elements⟩ => s!"(constant {ty.text} ({spaced (texts elements)}))"

def texts : List Constant → List String
  | [] => []
  | constant :: constants => text constant :: texts constants

end

end Constant
end StageLink
