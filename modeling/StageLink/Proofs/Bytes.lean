import StageLink.UniformBlock.Std140
import Mathlib.Order.Bounds.Basic

/-!
# Bytes of types

The rules of the layout say how many bytes a type takes, whatever fits a word: four for each
component of a scalar or a vector, sixteen for each vector of a matrix, a stride for each element of
an array, and for a record the least multiple of sixteen behind its last field.  As long as these
numbers are words, the extents that the layout works with have them as their sizes.
-/

namespace StageLink
namespace Std140

/-! ## Multiples -/

/-- The least multiple of an alignment that is not below a value. -/
def leastMultiple (alignment value : Nat) : Nat := alignment * ((value + alignment - 1) / alignment)

theorem dvd_leastMultiple (alignment value : Nat) : alignment ∣ leastMultiple alignment value :=
  Nat.dvd_mul_right alignment _

theorem le_leastMultiple {alignment : Nat} (positive : 0 < alignment) (value : Nat) :
    value ≤ leastMultiple alignment value := by
  have split := Nat.div_add_mod (value + alignment - 1) alignment
  have small := Nat.mod_lt (value + alignment - 1) positive
  rw [leastMultiple]
  omega

theorem leastMultiple_le {alignment value bound : Nat} (positive : 0 < alignment)
    (multiple : alignment ∣ bound) (enough : value ≤ bound) :
    leastMultiple alignment value ≤ bound := by
  obtain ⟨factor, rfl⟩ := multiple
  refine Nat.mul_le_mul_left alignment ?_
  rw [← Nat.lt_succ_iff, Nat.div_lt_iff_lt_mul positive, Nat.succ_mul, Nat.mul_comm factor]
  omega

theorem isLeast_leastMultiple {alignment : Nat} (positive : 0 < alignment) (value : Nat) :
    IsLeast {bound | alignment ∣ bound ∧ value ≤ bound} (leastMultiple alignment value) :=
  ⟨⟨dvd_leastMultiple alignment value, le_leastMultiple positive value⟩,
    fun _ ⟨multiple, enough⟩ => leastMultiple_le positive multiple enough⟩

/-- Rounding up gives the least multiple if that is a word. -/
theorem roundUp_eq (value alignment : Nat) :
    roundUp value alignment = wrap (leastMultiple alignment value) := by
  rw [roundUp, leastMultiple, Nat.mul_comm]

theorem roundUp_of_lt {value alignment : Nat} (fits : leastMultiple alignment value < UInt32.size) :
    roundUp value alignment = leastMultiple alignment value := by
  rw [roundUp_eq, wrap_of_lt fits]

/-! ## Alignments -/

/-- The alignment that the rules ask of a type.  Opaque types, which take no bytes, are aligned like
scalars. -/
def baseAlignment : Ty → Nat
  | .vector size _ => if size = .two then 8 else 16
  | .matrix .. | .array .. | .record .. | .interface .. => 16
  | .scalar _ | .void | .sampler .. | .atomicCounter => 4

theorem baseAlignment_dvd (ty : Ty) : baseAlignment ty ∣ 16 := by
  cases ty with
  | vector size _ =>
      rw [baseAlignment]
      split <;> decide
  | _ => simp [baseAlignment]

theorem baseAlignment_le (ty : Ty) : baseAlignment ty ≤ 16 :=
  Nat.le_of_dvd (by decide) (baseAlignment_dvd ty)

theorem baseAlignment_pos (ty : Ty) : 0 < baseAlignment ty :=
  Nat.pos_of_dvd_of_pos (baseAlignment_dvd ty) (by decide)

mutual

/-- The extent of a type is aligned as the rules ask. -/
theorem extent_alignment (rowMajor : Bool) :
    (ty : Ty) → (extent rowMajor ty).alignment = baseAlignment ty
  | .array element _ => by
      have small := baseAlignment_le element
      have rounded : leastMultiple 16 (baseAlignment element) = 16 :=
        Nat.le_antisymm (leastMultiple_le (by decide) (Nat.dvd_refl 16) small)
          (Nat.le_of_dvd (Nat.lt_of_lt_of_le (baseAlignment_pos element)
            (le_leastMultiple (by decide) _)) (dvd_leastMultiple 16 _))
      rw [extent, Extent.repeated, extent_alignment rowMajor element, roundUp_eq, rounded]
      rfl
  | .record _ fields => by
      rw [extent]
      exact fieldsExtent_alignment 0 fields
  | .interface _ fields _ => by
      rw [extent]
      exact fieldsExtent_alignment 0 fields
  | .void | .scalar _ | .vector .. | .matrix .. | .sampler .. | .atomicCounter => by
      rw [extent] <;> simp [baseAlignment]

/-- No field asks for more than a record has from the start. -/
theorem fieldsExtent_alignment (taken : Nat) :
    (fields : List (Field Ty)) → (fieldsExtent ⟨16, taken⟩ fields).alignment = 16
  | [] => rfl
  | ⟨_, ty, rowMajor⟩ :: fields => by
      have most : max 16 (extent rowMajor ty).alignment = 16 := by
        rw [extent_alignment rowMajor ty]
        exact Nat.max_eq_left (baseAlignment_le ty)
      rw [fieldsExtent]
      dsimp only
      rw [most]
      exact fieldsExtent_alignment _ fields

end

/-! ## Sizes -/

mutual

/-- The bytes that the rules give a type.  Opaque types take none, and an array without elements has
room for one. -/
def bytes (rowMajor : Bool) : Ty → Nat
  | .scalar kind => 4 * (Ty.scalar kind).components
  | .vector size kind => 4 * (Ty.vector size kind).components
  | .matrix columns rows => 16 * if rowMajor then rows.count else columns.count
  | .array element length => max (length.getD 0) 1 * leastMultiple 16 (bytes rowMajor element)
  | .record _ fields => leastMultiple 16 (bytesBehind 0 fields)
  | .interface _ fields _ => leastMultiple 16 (bytesBehind 0 fields)
  | .void | .sampler .. | .atomicCounter => 0

/-- The bytes behind the last of some fields, each of which begins at the least multiple of its
alignment that is not below what is taken before it. -/
def bytesBehind (taken : Nat) : List (Field Ty) → Nat
  | [] => taken
  | ⟨_, ty, rowMajor⟩ :: fields =>
      bytesBehind (leastMultiple (baseAlignment ty) taken + bytes rowMajor ty) fields

end

/-- The distance from one element of an array to the next. -/
def stride (rowMajor : Bool) (element : Ty) : Nat := leastMultiple 16 (bytes rowMajor element)

theorem bytes_le_stride (rowMajor : Bool) (element : Ty) :
    bytes rowMajor element ≤ stride rowMajor element := le_leastMultiple (by decide) _

theorem le_bytesBehind (fields : List (Field Ty)) :
    ∀ taken : Nat, taken ≤ bytesBehind taken fields := by
  induction fields with
  | nil => exact fun _ => by rw [bytesBehind]
  | cons field fields ih =>
      intro taken
      have follows := le_leastMultiple (baseAlignment_pos field.ty) taken
      rw [bytesBehind]
      exact Nat.le_trans (Nat.le_trans follows (Nat.le_add_right ..)) (ih _)

mutual

/-- The extent of a type has the size that the rules give the type, if that is a word. -/
theorem extent_size (rowMajor : Bool) :
    (ty : Ty) → bytes rowMajor ty < UInt32.size → (extent rowMajor ty).size = bytes rowMajor ty
  | .array element length => by
      intro fits
      have one_fits : stride rowMajor element ≤ max (length.getD 0) 1 * stride rowMajor element :=
        Nat.le_mul_of_pos_left _ (by omega)
      rw [bytes, ← stride] at fits
      have stride_fits := Nat.lt_of_le_of_lt one_fits fits
      have size := extent_size rowMajor element
        (Nat.lt_of_le_of_lt (bytes_le_stride rowMajor element) stride_fits)
      rw [extent, Extent.repeated, size, roundUp_of_lt stride_fits, ← stride, Nat.mul_comm,
        wrap_of_lt fits, bytes, ← stride]
  | .record _ fields => by
      intro fits
      rw [bytes] at fits
      rw [extent, bytes]
      exact closed_size fields fits
  | .interface _ fields _ => by
      intro fits
      rw [bytes] at fits
      rw [extent, bytes]
      exact closed_size fields fits
  | .void | .scalar _ | .vector .. | .matrix .. | .sampler .. | .atomicCounter => by
      intro _
      rw [extent, bytes] <;> simp [Ty.components]

theorem closed_size (fields : List (Field Ty))
    (fits : leastMultiple 16 (bytesBehind 0 fields) < UInt32.size) :
    (fieldsExtent ⟨16, 0⟩ fields).closed.size = leastMultiple 16 (bytesBehind 0 fields) := by
  have behind := Nat.lt_of_le_of_lt (le_leastMultiple (by decide) _) fits
  rw [Extent.closed, fieldsExtent_alignment, fieldsExtent_size 16 fields 0 behind,
    roundUp_of_lt fits]

theorem fieldsExtent_size (alignment : Nat) : (fields : List (Field Ty)) → (taken : Nat) →
    bytesBehind taken fields < UInt32.size →
      (fieldsExtent ⟨alignment, taken⟩ fields).size = bytesBehind taken fields
  | [], _ => fun _ => by rw [fieldsExtent, bytesBehind]
  | ⟨_, ty, rowMajor⟩ :: fields, taken => by
      intro fits
      rw [bytesBehind] at fits
      have here := Nat.lt_of_le_of_lt (le_bytesBehind fields _) fits
      have size := extent_size rowMajor ty (Nat.lt_of_le_of_lt (Nat.le_add_left ..) here)
      have start := roundUp_of_lt (Nat.lt_of_le_of_lt (Nat.le_add_right ..) here)
      rw [fieldsExtent, bytesBehind]
      dsimp only
      rw [extent_alignment, start, size, wrap_of_lt here]
      exact fieldsExtent_size _ fields _ fits

end

end Std140

/-! ## Blocks -/

/-- What a member declares, as a field of a record. -/
def BlockMember.field (member : BlockMember) : Field Ty := ⟨member.name, member.ty, member.rowMajor⟩

/-- The bytes that the rules give a block, which is laid out like a record of its members. -/
def UniformBlock.bytes (block : UniformBlock) : Nat :=
  Std140.leastMultiple 16 (Std140.bytesBehind 0 (block.members.map BlockMember.field))

namespace Std140

/-- As long as the bytes are words, a member begins at the least multiple of its alignment, and the
next ones are placed behind its bytes. -/
theorem placeMembers_cons {start : Nat} {member : BlockMember} {members : List BlockMember}
    (fits : bytesBehind start ((member :: members).map BlockMember.field) < UInt32.size) :
    let first := leastMultiple (baseAlignment member.ty) start
    let behind := first + bytes member.rowMajor member.ty
    bytesBehind behind (members.map BlockMember.field) < UInt32.size ∧
      placeMembers start (member :: members) =
        ({ member with offset := first } :: (placeMembers behind members).1,
          (placeMembers behind members).2) := by
  rw [List.map_cons, BlockMember.field, bytesBehind] at fits
  refine ⟨fits, ?_⟩
  have here := Nat.lt_of_le_of_lt (le_bytesBehind _ _) fits
  have size := extent_size member.rowMajor member.ty (Nat.lt_of_le_of_lt (Nat.le_add_left ..) here)
  have begins := roundUp_of_lt (Nat.lt_of_le_of_lt (Nat.le_add_right ..) here)
  rw [placeMembers]
  dsimp only
  rw [extent_alignment, begins, size, wrap_of_lt here]

/-- Placing members leads behind the bytes that the rules give them. -/
theorem placeMembers_final (members : List BlockMember) : ∀ start : Nat,
    bytesBehind start (members.map BlockMember.field) < UInt32.size →
      (placeMembers start members).2 = bytesBehind start (members.map BlockMember.field) := by
  induction members with
  | nil => exact fun _ _ => by rw [placeMembers, List.map_nil, bytesBehind]
  | cons member members ih =>
      intro start fits
      obtain ⟨fits_behind, places⟩ := placeMembers_cons fits
      rw [places, List.map_cons, BlockMember.field, bytesBehind]
      exact ih _ fits_behind

end Std140
end StageLink
