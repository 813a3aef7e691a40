import StageLink.Document
import StageLink.Ty

/-!
# Types as documents

A type without parts is written as its name, and any other as a record whose only member bears the
name and holds the parts.
-/

namespace StageLink

def ScalarKind.naming : Naming ScalarKind where
  all := [.bool, .int, .uint, .float]
  name
    | .bool => "Bool"
    | .int => "Int"
    | .uint => "Uint"
    | .float => "Float"

def VectorSize.naming : Naming VectorSize where
  all := [.two, .three, .four]
  name
    | .two => "Bi"
    | .three => "Tri"
    | .four => "Quad"

def SamplerDimension.naming : Naming SamplerDimension where
  all :=
    [.d1, .d2, .d3, .cube, .rectangle, .buffer, .d1Array, .d2Array, .cubeArray, .d2Multisample]
  name
    | .d1 => "D1"
    | .d2 => "D2"
    | .d3 => "D3"
    | .cube => "Cube"
    | .rectangle => "Rect"
    | .buffer => "Buffer"
    | .d1Array => "D1Array"
    | .d2Array => "D2Array"
    | .cubeArray => "CubeArray"
    | .d2Multisample => "D2Multisample"

def Packing.naming : Naming Packing where
  all := [.std140, .shared, .packed]
  name
    | .std140 => "Std140"
    | .shared => "Shared"
    | .packed => "Packed"

namespace Ty

open Document

/-! ## Writing -/

def writeLength : Option Nat → Document
  | some length => alternative "Constant" (natural length)
  | none => text "Unsized"

mutual

/-- Write a type. -/
def toDocument : Ty → Document
  | void => text "Void"
  | atomicCounter => text "AtomicUint"
  | scalar kind => alternative "Scalar" (ScalarKind.naming.write kind)
  | vector size kind =>
      alternative "Vector" <| .record
        [("size", VectorSize.naming.write size), ("kind", ScalarKind.naming.write kind)]
  | matrix columns rows =>
      alternative "Matrix" <| .record
        [("columns", VectorSize.naming.write columns), ("rows", VectorSize.naming.write rows)]
  | sampler dimension kind shadow =>
      alternative "Sampler" <| .record
        [("dim", SamplerDimension.naming.write dimension),
          ("kind", ScalarKind.naming.write kind), ("shadow", .bool shadow)]
  | array element length =>
      alternative "Array" <| .record
        [("base", toDocument element), ("size", writeLength length)]
  | record name fields =>
      alternative "Struct" <| .record
        [("name", text name), ("fields", list (fieldDocuments fields))]
  | interface name fields packing =>
      alternative "Interface" <| .record
        [("name", text name), ("fields", list (fieldDocuments fields)),
          ("packing", Packing.naming.write packing)]

/-- Write some fields. -/
def fieldDocuments : List (Field Ty) → List Document
  | [] => []
  | ⟨name, ty, rowMajor⟩ :: fields =>
      .record [("name", text name), ("ty", toDocument ty), ("row_major", .bool rowMajor)]
        :: fieldDocuments fields

end

/-- Write a field. -/
def fieldDocument (field : Field Ty) : Document :=
  .record
    [("name", text field.name), ("ty", field.ty.toDocument), ("row_major", .bool field.rowMajor)]

@[simp]
theorem fieldDocuments_eq_map (fields : List (Field Ty)) :
    fieldDocuments fields = fields.map fieldDocument := by
  induction fields with
  | nil => rfl
  | cons field fields ih => simp [fieldDocuments, fieldDocument, ih]

/-! ## Reading -/

def readLength (document : Document) : Decoded (Option Nat) := do
  match ← document.choice with
  | ("Constant", some length) => some <$> length.val.asWord
  | ("Unsized", content) => do
      noContent content
      return none
  | (name, _) => throw (.unknownName name)

mutual

/-- Read a type. -/
def ofDocument (document : Document) : Decoded Ty := do
  match ← document.choice with
  | ("Void", content) => do
      noContent content
      return .void
  | ("AtomicUint", content) => do
      noContent content
      return .atomicCounter
  | ("Scalar", some kind) => return .scalar (← ScalarKind.naming.read kind.val)
  | ("Vector", some content) => do
      let members ← content.val.content ["size", "kind"]
      return .vector (← members.required "size" VectorSize.naming.read)
        (← members.required "kind" ScalarKind.naming.read)
  | ("Matrix", some content) => do
      let members ← content.val.content ["columns", "rows"]
      return .matrix (← members.required "columns" VectorSize.naming.read)
        (← members.required "rows" VectorSize.naming.read)
  | ("Sampler", some content) => do
      let members ← content.val.content ["dim", "kind", "shadow"]
      return .sampler (← members.required "dim" SamplerDimension.naming.read)
        (← members.required "kind" ScalarKind.naming.read)
        (← members.required "shadow" asBool)
  | ("Array", some ⟨content, _⟩) => do
      let members ← content.content ["base", "size"]
      let ⟨base, _⟩ ← members.get "base"
      return .array (← ofDocument base) (← members.required "size" readLength)
  | ("Struct", some ⟨content, _⟩) => do
      let members ← content.content ["name", "fields"]
      let ⟨fields, _⟩ ← members.get "fields"
      return .record (← members.required "name" asText) (← fieldsOfDocument fields)
  | ("Interface", some ⟨content, _⟩) => do
      let members ← content.content ["name", "fields", "packing"]
      let ⟨fields, _⟩ ← members.get "fields"
      return .interface (← members.required "name" asText) (← fieldsOfDocument fields)
        (← members.required "packing" Packing.naming.read)
  | (name, _) => throw (.unknownName name)
termination_by sizeOf document

def fieldsOfDocument (document : Document) : Decoded (List (Field Ty)) := do
  (← document.items).mapM fun ⟨item, _⟩ => do
    let members ← item.membersInOrder ["name", "ty", "row_major"]
    let ⟨ty, _⟩ ← members.get "ty"
    return {
      name := ← members.required "name" asText
      ty := ← ofDocument ty
      rowMajor := ← members.optional "row_major" false asBool }
termination_by sizeOf document

end

end Ty
end StageLink
