import StageLink.UniformBlock

/-!
# The std140 layout

Every type has a base alignment and a size in bytes.  A scalar takes four bytes; a vector is aligned
to eight or sixteen; the elements of an array, the vectors of a matrix and the whole of a record are
aligned to sixteen.  Members are placed one after the other, each at the next offset that its
alignment allows.  Blocks with another packing are laid out by the same rules.
-/

namespace StageLink
namespace Std140

/-- The least multiple of an alignment that is not below a value. -/
def roundUp (value alignment : Nat) : Nat :=
  wrap ((value + alignment - 1) / alignment * alignment)

/-- How a type is placed. -/
structure Extent where
  alignment : Nat
  size : Nat
  deriving DecidableEq

/-- The extent of an array of a number of elements. -/
def Extent.repeated (element : Extent) (count : Nat) : Extent :=
  ⟨roundUp element.alignment 16, wrap (roundUp element.size 16 * count)⟩

/-- The extent of a record that is complete. -/
def Extent.closed (members : Extent) : Extent :=
  ⟨members.alignment, roundUp members.size members.alignment⟩

mutual

/-- The extent of a type; an array without a length counts one element. -/
def extent (rowMajor : Bool) : Ty → Extent
  | .scalar _ => ⟨4, 4⟩
  | .vector size _ => ⟨if size = .two then 8 else 16, 4 * size.count⟩
  | .matrix columns rows => ⟨16, 16 * if rowMajor then rows.count else columns.count⟩
  | .array element length => (extent rowMajor element).repeated (max (length.getD 0) 1)
  | .record _ fields => (fieldsExtent ⟨16, 0⟩ fields).closed
  | .interface _ fields _ => (fieldsExtent ⟨16, 0⟩ fields).closed
  | _ => ⟨4, 0⟩

/-- The extent of a record after some more fields.  Each field says itself how its matrices are
stored. -/
def fieldsExtent (sofar : Extent) : List (Field Ty) → Extent
  | [] => sofar
  | ⟨_, ty, rowMajor⟩ :: fields =>
      let field := extent rowMajor ty
      let start := roundUp sofar.size field.alignment
      fieldsExtent ⟨max sofar.alignment field.alignment, wrap (start + field.size)⟩ fields

end

/-- Place some members from an offset on, and give the offset after them. -/
def placeMembers (offset : Nat) : List BlockMember → List BlockMember × Nat
  | [] => ([], offset)
  | member :: members =>
      let place := extent member.rowMajor member.ty
      let start := roundUp offset place.alignment
      let (placed, final) := placeMembers (wrap (start + place.size)) members
      ({ member with offset := start } :: placed, final)

end Std140

def UniformBlock.layout (block : UniformBlock) : UniformBlock :=
  let (members, final) := Std140.placeMembers 0 block.members
  { block with members := members, size := Std140.roundUp final 16 }

end StageLink
