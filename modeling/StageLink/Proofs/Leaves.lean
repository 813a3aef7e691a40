import StageLink.Uniform.Storage
import Mathlib.Data.List.Perm.Basic

/-!
# Leaves of uniforms

The resources of a uniform are computed from its type as a whole, while the list of uniforms holds
the leaves of the type.  Both come to the same for whatever a record needs for its fields together
and an array for each of its elements.
-/

namespace StageLink

/-! ## Totals -/

theorem total_map_const {Item : Type} (weight : Nat) (items : List Item) :
    total (items.map fun _ => weight) = items.length * weight := by
  induction items with
  | nil => simp
  | cons item items ih =>
      rw [List.map_cons, total_cons, ih, List.length_cons, Nat.succ_mul, Nat.add_comm]

/-- Numbers in another order have the same total. -/
theorem total_perm {one other : List Nat} (perm : one.Perm other) : total one = total other := by
  induction perm with
  | nil => rfl
  | cons number _ ih => rw [total_cons, total_cons, ih]
  | swap first second rest => simp [Nat.add_left_comm]
  | trans _ _ first second => exact first.trans second

namespace Uniform

/-- What a type takes is what a word holds of the total of its fields, or of its elements. -/
structure Additive (weight : Ty → Nat) : Prop where
  word : ∀ ty, weight ty < UInt32.size
  record : ∀ name fields, weight (.record name fields) = wrap (total (fields.map (weight ·.ty)))
  array : ∀ element length, weight (.array element length) = wrap (length.getD 0 * weight element)

theorem additive_componentSlots : Additive Ty.componentSlots :=
  ⟨Ty.componentSlots_lt, fun _ _ => by simp [Ty.componentSlots],
    fun _ _ => by simp [Ty.componentSlots]⟩

theorem additive_samplerCount : Additive Ty.samplerCount :=
  ⟨Ty.samplerCount_lt, fun _ _ => by simp [Ty.samplerCount], fun _ _ => by simp [Ty.samplerCount]⟩

/-- The leaves of a type take together what the type takes. -/
theorem total_flatten {weight : Ty → Nat} (additive : Additive weight) (name : String) (ty : Ty) :
    wrap (total ((flatten name ty).map (weight ·.2))) = weight ty := by
  refine flatten.induct
    (fun name ty => wrap (total ((flatten name ty).map (weight ·.2))) = weight ty)
    (fun name fields => wrap (total ((flattenFields name fields).map (weight ·.2))) =
      wrap (total (fields.map (weight ·.ty))))
    ?record ?records ?leaf ?none ?more name ty
  case record =>
    intro name recordName fields ih
    rw [flatten, ih, additive.record]
  case records =>
    intro name recordName fields length ih
    rw [flatten, total_flatMap, additive.array, ← wrap_total_map_wrap]
    simp only [ih, total_map_const, List.length_range]
  case leaf =>
    intro name ty no_record no_records
    rw [flatten.eq_3 name ty no_record no_records]
    simpa using wrap_of_lt (additive.word ty)
  case none => exact fun _ => rfl
  case more =>
    intro name field ty rowMajor fields first rest
    rw [flattenFields, List.map_append, total_append, ← wrap_wrap_add, first, ← wrap_add_wrap, rest,
      wrap_add_wrap, List.map_cons, total_cons]

def Leaf.part (leaf : Leaf) : String × Ty := (leaf.name, leaf.ty)

/-- The names and types of the leaves of a uniform in the default block are those of its type. -/
theorem defaultLeaves_parts (declared : Variable) :
    (defaultLeaves declared).map Leaf.part = flatten declared.name declared.ty := by
  rw [defaultLeaves, List.map_map]
  exact List.map_id _

/-- Uniforms of the default block take what their leaves take together. -/
theorem total_defaultLeaves {weight : Ty → Nat} (additive : Additive weight)
    (declared : List Variable) :
    wrap (total ((declared.flatMap defaultLeaves).map (weight ·.ty))) =
      wrap (total (declared.map (weight ·.ty))) := by
  rw [total_flatMap, ← wrap_total_map_wrap]
  congr 2
  refine List.map_congr_left fun uniform _ => ?_
  rw [← total_flatten additive uniform.name, ← defaultLeaves_parts, List.map_map]
  rfl

end Uniform
end StageLink
