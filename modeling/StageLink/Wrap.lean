import StageLink.Total

/-!
# Machine numbers

Slots, components, units, locations, lengths and bytes are counted in words of thirty-two bits.  A
sum or a product that does not fit a word loses its multiples of `2 ^ 32`.
-/

namespace StageLink

/-- What a word holds of a number. -/
def wrap (number : Nat) : Nat := number % UInt32.size

theorem wrap_lt (number : Nat) : wrap number < UInt32.size := Nat.mod_lt number (by decide)

theorem wrap_of_lt {number : Nat} (fits : number < UInt32.size) : wrap number = number :=
  Nat.mod_eq_of_lt fits

@[simp]
theorem wrap_zero : wrap 0 = 0 := rfl

@[simp]
theorem wrap_add_wrap (number more : Nat) : wrap (number + wrap more) = wrap (number + more) :=
  Nat.add_mod_mod number more _

@[simp]
theorem wrap_wrap_add (number more : Nat) : wrap (wrap number + more) = wrap (number + more) :=
  Nat.mod_add_mod number _ more

@[simp]
theorem wrap_mul_wrap (count number : Nat) :
    wrap (count * wrap number) = wrap (count * number) := by
  rw [wrap, wrap, Nat.mul_mod, Nat.mod_mod, ← Nat.mul_mod, ← wrap]

/-- Adding up wrapped totals comes to the wrapped total of all. -/
theorem wrap_total_map_wrap {Item : Type} (weight : Item → Nat) (items : List Item) :
    wrap (total (items.map fun item => wrap (weight item))) = wrap (total (items.map weight)) := by
  induction items with
  | nil => rfl
  | cons item items ih =>
      rw [List.map_cons, List.map_cons, total_cons, total_cons, wrap_wrap_add, ← wrap_add_wrap, ih,
        wrap_add_wrap]

end StageLink
