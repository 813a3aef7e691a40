import StageLink.Ty

/-!
# Uniform blocks

A uniform block has named members of which each gets a byte offset when the block is laid out.
-/

namespace StageLink

/-- A member of a uniform block. -/
structure BlockMember where
  name : String
  ty : Ty
  rowMajor : Bool := false
  /-- The byte offset given by the layout of the block. -/
  offset : Nat := 0
  deriving DecidableEq

/-- A named uniform block. -/
structure UniformBlock where
  name : String
  members : List BlockMember
  packing : Packing := .std140
  binding : Option Nat := none
  /-- The size in bytes given by the layout of the block. -/
  size : Nat := 0
  deriving DecidableEq

namespace BlockMember

/-- Whether two members declare the same, wherever they are placed. -/
def sameDefinition (left right : BlockMember) : Bool :=
  left.name = right.name ∧ left.ty = right.ty ∧ left.rowMajor = right.rowMajor

end BlockMember

namespace UniformBlock

/-- A block of column-major members that has not been laid out. -/
def ofMembers (name : String) (members : List (String × Ty)) : UniformBlock :=
  { name := name, members := members.map fun member => { name := member.1, ty := member.2 } }

/-- Whether two blocks declare the same members in the same packing, wherever they are placed. -/
def sameDefinition (left right : UniformBlock) : Bool :=
  left.name = right.name && left.packing = right.packing
    && left.members.length = right.members.length
    && (left.members.zip right.members).all fun pair => pair.1.sameDefinition pair.2

end UniformBlock
end StageLink
