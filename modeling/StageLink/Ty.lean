import StageLink.Wrap

/-!
# Types of the shading language

Types are plain values compared by structure, so a type met in one shader can be compared with, or
moved into, any other shader.  Equality is decided by a recursive test that looks at every field
name, field type and qualifier.
-/

namespace StageLink

/-- The kind of a single component. -/
inductive ScalarKind where
  | bool
  | int
  | uint
  | float
  deriving DecidableEq

/-- The number of components of a vector, and of columns or rows of a matrix. -/
inductive VectorSize where
  | two
  | three
  | four
  deriving DecidableEq

/-- What a sampler looks texels up in. -/
inductive SamplerDimension where
  | d1
  | d2
  | d3
  | cube
  | rectangle
  | buffer
  | d1Array
  | d2Array
  | cubeArray
  | d2Multisample
  deriving DecidableEq

/-- The packing rule of an interface block. -/
inductive Packing where
  | std140
  | shared
  | packed
  deriving DecidableEq

/-- A named member of a record or interface block. -/
structure Field (Shape : Type) where
  name : String
  ty : Shape
  /-- Matrices inside the member are stored row by row. -/
  rowMajor : Bool := false
  deriving DecidableEq

/-- A type of the shading language. -/
inductive Ty where
  | void
  | scalar (kind : ScalarKind)
  | vector (size : VectorSize) (kind : ScalarKind)
  /-- A float matrix of column vectors. -/
  | matrix (columns rows : VectorSize)
  | sampler (dimension : SamplerDimension) (kind : ScalarKind) (shadow : Bool)
  | atomicCounter
  /-- An array; without a length it is implicitly sized. -/
  | array (element : Ty) (length : Option Nat)
  | record (name : String) (fields : List (Field Ty))
  /-- The type of an interface block. -/
  | interface (name : String) (fields : List (Field Ty)) (packing : Packing)

/-- The number a vector size stands for. -/
def VectorSize.count : VectorSize → Nat
  | two => 2
  | three => 3
  | four => 4

namespace Ty

/-! ## Equality -/

mutual

/-- Structural equality test. -/
def same : Ty → Ty → Bool
  | void, void => true
  | scalar left, scalar right => left = right
  | vector size kind, vector size' kind' => size = size' ∧ kind = kind'
  | matrix columns rows, matrix columns' rows' => columns = columns' ∧ rows = rows'
  | sampler dimension kind shadow, sampler dimension' kind' shadow' =>
      dimension = dimension' ∧ kind = kind' ∧ shadow = shadow'
  | atomicCounter, atomicCounter => true
  | array element length, array element' length' => same element element' && length = length'
  | record name fields, record name' fields' => name = name' && sameFields fields fields'
  | interface name fields packing, interface name' fields' packing' =>
      name = name' && sameFields fields fields' && packing = packing'
  | _, _ => false

/-- Structural equality test of field lists. -/
def sameFields : List (Field Ty) → List (Field Ty) → Bool
  | [], [] => true
  | ⟨name, ty, rowMajor⟩ :: fields, ⟨name', ty', rowMajor'⟩ :: fields' =>
      name = name' && same ty ty' && rowMajor = rowMajor' && sameFields fields fields'
  | _, _ => false

end

mutual

theorem same_iff : (left right : Ty) → (same left right = true ↔ left = right)
  | void, right => by cases right <;> simp [same]
  | scalar _, right => by cases right <;> simp [same]
  | vector _ _, right => by cases right <;> simp [same]
  | matrix _ _, right => by cases right <;> simp [same]
  | sampler _ _ _, right => by cases right <;> simp [same]
  | atomicCounter, right => by cases right <;> simp [same]
  | array element _, right => by cases right <;> simp [same, same_iff element]
  | record _ fields, right => by cases right <;> simp [same, sameFields_iff fields]
  | interface _ fields _, right => by
      cases right <;> simp [same, sameFields_iff fields, and_assoc]

theorem sameFields_iff :
    (left right : List (Field Ty)) → (sameFields left right = true ↔ left = right)
  | [], right => by cases right <;> simp [sameFields]
  | ⟨_, ty, _⟩ :: fields, right => by
      cases right with
      | nil => simp [sameFields]
      | cons head tail =>
          cases head
          simp [sameFields, same_iff ty, sameFields_iff fields, and_assoc]

end

instance : DecidableEq Ty := fun left right => decidable_of_iff _ (same_iff left right)

instance : Inhabited Ty := ⟨void⟩

/-! ## Common types -/

/-- The boolean type. -/
def bool : Ty := scalar .bool

/-- The signed integer type. -/
def int : Ty := scalar .int

/-- The unsigned integer type. -/
def uint : Ty := scalar .uint

/-- The float type. -/
def float : Ty := scalar .float

def floatVector (size : VectorSize) : Ty := vector size .float

def sizedArray (element : Ty) (length : Nat) : Ty := array element (some length)

/-- An implicitly sized array. -/
def unsizedArray (element : Ty) : Ty := array element none

/-! ## Shape -/

/-- Whether this is an array type. -/
def isArray : Ty → Bool
  | array .. => true
  | _ => false

/-- Whether this is an implicitly sized array type. -/
def isUnsizedArray : Ty → Bool
  | array _ none => true
  | _ => false

/-- Whether this is the type of an interface block. -/
def isInterface : Ty → Bool
  | interface .. => true
  | _ => false

/-- Whether this is a sampler type. -/
def isSampler : Ty → Bool
  | sampler .. => true
  | _ => false

/-- The length of an array type, which is zero while the array is implicitly sized. -/
def length? : Ty → Option Nat
  | array _ length => some (length.getD 0)
  | _ => none

/-- The element type of an array type. -/
def element? : Ty → Option Ty
  | array element _ => some element
  | _ => none

/-- An array type with its length replaced; any other type is left alone. -/
def withLength (ty : Ty) (length : Nat) : Ty :=
  match ty with
  | array element _ => array element (some length)
  | other => other

def fields : Ty → List (Field Ty)
  | record _ fields => fields
  | interface _ fields _ => fields
  | _ => []

/-- The position of the first field with a name. -/
def fieldIndex? (ty : Ty) (name : String) : Option Nat :=
  ty.fields.findIdx? (·.name = name)

def fieldType? (ty : Ty) (name : String) : Option Ty :=
  (ty.fields.find? (·.name = name)).map (·.ty)

def name? : Ty → Option String
  | record name _ => some name
  | interface name _ _ => some name
  | _ => none

/-- The interface type inside this type, looking through one level of array. -/
def interface? : Ty → Option Ty
  | interface name fields packing => some (interface name fields packing)
  | array (interface name fields packing) _ => some (interface name fields packing)
  | _ => none

/-! ## Sizes -/

def components : Ty → Nat
  | scalar _ => 1
  | vector size _ => size.count
  | matrix columns rows => columns.count * rows.count
  | _ => 0

mutual

/-- The number of uniform components occupied; opaque types occupy none. -/
def componentSlots : Ty → Nat
  | scalar _ => 1
  | vector size _ => size.count
  | matrix columns rows => columns.count * rows.count
  | array element length => wrap (length.getD 0 * componentSlots element)
  | record _ fields => fieldsComponentSlots fields
  | interface _ fields _ => fieldsComponentSlots fields
  | _ => 0

/-- The sum of the component slots of some fields. -/
def fieldsComponentSlots : List (Field Ty) → Nat
  | [] => 0
  | ⟨_, ty, _⟩ :: fields => wrap (componentSlots ty + fieldsComponentSlots fields)

end

mutual

/-- The number of attribute, varying or draw-buffer slots occupied; a matrix takes one for each
column. -/
def attributeSlots : Ty → Nat
  | scalar _ => 1
  | vector _ _ => 1
  | matrix columns _ => columns.count
  | array element length => wrap (length.getD 0 * attributeSlots element)
  | record _ fields => fieldsAttributeSlots fields
  | interface _ fields _ => fieldsAttributeSlots fields
  | _ => 0

/-- The sum of the attribute slots of some fields. -/
def fieldsAttributeSlots : List (Field Ty) → Nat
  | [] => 0
  | ⟨_, ty, _⟩ :: fields => wrap (attributeSlots ty + fieldsAttributeSlots fields)

end

mutual

/-- The number of sampler units consumed.  Interface blocks hold no samplers. -/
def samplerCount : Ty → Nat
  | sampler .. => 1
  | array element length => wrap (length.getD 0 * samplerCount element)
  | record _ fields => fieldsSamplerCount fields
  | _ => 0

/-- The sum of the sampler units of some fields. -/
def fieldsSamplerCount : List (Field Ty) → Nat
  | [] => 0
  | ⟨_, ty, _⟩ :: fields => wrap (samplerCount ty + fieldsSamplerCount fields)

end

mutual

/-- Whether an atomic counter occurs in the type, outside interface blocks. -/
def containsAtomic : Ty → Bool
  | atomicCounter => true
  | array element _ => containsAtomic element
  | record _ fields => fieldsContainAtomic fields
  | _ => false

/-- Whether an atomic counter occurs in some of the fields. -/
def fieldsContainAtomic : List (Field Ty) → Bool
  | [] => false
  | ⟨_, ty, _⟩ :: fields => containsAtomic ty || fieldsContainAtomic fields

end

/-- Whether the type consumes sampler units, or is an array, whatever its length, of one that
does. -/
def containsSampler : Ty → Bool
  | array element length => samplerCount (array element length) > 0 || containsSampler element
  | other => samplerCount other > 0

@[simp]
theorem fieldsComponentSlots_eq_total (fields : List (Field Ty)) :
    fieldsComponentSlots fields = wrap (total (fields.map (·.ty.componentSlots))) := by
  induction fields with
  | nil => rfl
  | cons field fields ih => simp [fieldsComponentSlots, ih]

@[simp]
theorem fieldsAttributeSlots_eq_total (fields : List (Field Ty)) :
    fieldsAttributeSlots fields = wrap (total (fields.map (·.ty.attributeSlots))) := by
  induction fields with
  | nil => rfl
  | cons field fields ih => simp [fieldsAttributeSlots, ih]

@[simp]
theorem fieldsSamplerCount_eq_total (fields : List (Field Ty)) :
    fieldsSamplerCount fields = wrap (total (fields.map (·.ty.samplerCount))) := by
  induction fields with
  | nil => rfl
  | cons field fields ih => simp [fieldsSamplerCount, ih]

theorem componentSlots_lt (ty : Ty) : ty.componentSlots < UInt32.size := by
  cases ty with
  | array =>
      rw [componentSlots]
      exact wrap_lt _
  | record | interface =>
      rw [componentSlots, fieldsComponentSlots_eq_total]
      exact wrap_lt _
  | vector size => cases size <;> simp [componentSlots, VectorSize.count, UInt32.size]
  | matrix columns rows =>
      cases columns <;> cases rows <;> simp [componentSlots, VectorSize.count, UInt32.size]
  | _ => simp [componentSlots, UInt32.size]

theorem samplerCount_lt (ty : Ty) : ty.samplerCount < UInt32.size := by
  cases ty with
  | array =>
      rw [samplerCount]
      exact wrap_lt _
  | record =>
      rw [samplerCount, fieldsSamplerCount_eq_total]
      exact wrap_lt _
  | _ => simp [samplerCount, UInt32.size]

@[simp]
theorem fieldsContainAtomic_eq_any (fields : List (Field Ty)) :
    fieldsContainAtomic fields = fields.any (·.ty.containsAtomic) := by
  induction fields with
  | nil => rfl
  | cons field fields ih => simp [fieldsContainAtomic, ih]

@[simp]
theorem length?_withLength (ty : Ty) (length : Nat) :
    (ty.withLength length).length? = ty.length?.map fun _ => length := by
  cases ty <;> rfl

end Ty
end StageLink
