/-!
# Totals

The total of a list of numbers: of slots, of components, of nodes.
-/

namespace StageLink

def total : List Nat → Nat
  | [] => 0
  | number :: numbers => number + total numbers

@[simp]
theorem total_nil : total [] = 0 := rfl

@[simp]
theorem total_cons (number : Nat) (numbers : List Nat) :
    total (number :: numbers) = number + total numbers := rfl

@[simp]
theorem total_append (before after : List Nat) :
    total (before ++ after) = total before + total after := by
  induction before with
  | nil => simp
  | cons number before ih => simp [ih, Nat.add_assoc]

/-- Each of the numbers is at most their total. -/
theorem le_total_of_mem {number : Nat} {numbers : List Nat} (listed : number ∈ numbers) :
    number ≤ total numbers := by
  induction numbers with
  | nil => simp at listed
  | cons first rest ih =>
    rcases List.mem_cons.mp listed with rfl | inRest
    · exact Nat.le_add_right number (total rest)
    · exact Nat.le_trans (ih inRest) (Nat.le_add_left (total rest) first)

section Maps

variable {Item : Type} {smaller larger : Item → Nat} {items : List Item}

theorem total_map_le (each : ∀ item ∈ items, smaller item ≤ larger item) :
    total (items.map smaller) ≤ total (items.map larger) := by
  induction items with
  | nil => exact Nat.le_refl _
  | cons first rest ih =>
      have here := each first (List.mem_cons_self ..)
      have later := ih fun item listed => each item (List.mem_cons_of_mem first listed)
      simp only [List.map_cons, total_cons]
      omega

/-- One number that is less makes the total less. -/
theorem total_map_lt {item : Item} (each : ∀ item ∈ items, smaller item ≤ larger item)
    (listed : item ∈ items) (less : smaller item < larger item) :
    total (items.map smaller) < total (items.map larger) := by
  obtain ⟨before, after, rfl⟩ := List.append_of_mem listed
  have early := @total_map_le _ smaller larger before fun item inside =>
    each item (List.mem_append_left _ inside)
  have late := @total_map_le _ smaller larger after fun item inside =>
    each item (List.mem_append_right _ (List.mem_cons_of_mem _ inside))
  simp only [List.map_append, List.map_cons, total_append, total_cons]
  omega

/-- Choosing some items counts what the others would have added as nothing. -/
theorem total_filter (keep : Item → Bool) (weight : Item → Nat) (items : List Item) :
    total ((items.filter keep).map weight) =
      total (items.map fun item => if keep item then weight item else 0) := by
  induction items with
  | nil => rfl
  | cons first rest ih =>
      rw [List.map_cons, total_cons, ← ih, List.filter_cons]
      split <;> simp

/-- Totals can be taken side by side. -/
theorem total_map_add (one other : Item → Nat) (items : List Item) :
    total (items.map one) + total (items.map other) =
      total (items.map fun item => one item + other item) := by
  induction items with
  | nil => rfl
  | cons first rest ih =>
      simp only [List.map_cons, total_cons]
      omega

theorem total_flatMap {Part : Type} (weight : Part → Nat) (parts : Item → List Part)
    (items : List Item) : total ((items.flatMap parts).map weight) =
      total (items.map fun item => total ((parts item).map weight)) := by
  induction items with
  | nil => rfl
  | cons item items ih => simp [ih]

end Maps

end StageLink
