import StageLink.Constant
import StageLink.Interchange.Ty

/-!
# Constants as documents

The components of a constant stand under the name of their kind.  Float components are read as
numbers and written as bit patterns, so that writing loses nothing; only those that are no finite
numbers are left out.
-/

namespace StageLink
namespace Constant

open Document

mutual

/-- Write a constant. -/
def toDocument : Constant → Document
  | ⟨ty, value⟩ => .record [("ty", ty.toDocument), ("value", payloadDocument value)]

def payloadDocument : Payload Constant → Document
  | .bools components => alternative "Bool" (listOf .bool components)
  | .ints components => alternative "Int" (listOf (fun value => .integer value.toInt) components)
  | .uints components => alternative "Uint" (listOf (fun value => natural value.toNat) components)
  | .floats components => alternative "Float" (listOf single components)
  | .composite elements => alternative "Composite" (list (documents elements))

/-- Write some constants. -/
def documents : List Constant → List Document
  | [] => []
  | constant :: constants => toDocument constant :: documents constants

end

/-- Read a signed component. -/
def readInt (document : Document) : Decoded Int32 :=
  return Int32.ofInt (← document.asInteger Int32.minValue.toInt Int32.maxValue.toInt)

/-- Read an unsigned component. -/
def readUInt (document : Document) : Decoded UInt32 :=
  return UInt32.ofNat (← document.asWord)

/-- Read the bit pattern of a float component. -/
def readPattern (document : Document) : Decoded Single :=
  return ⟨← readUInt document⟩

mutual

/-- Read a constant.  If `patterns` is set, float components may also be given by their bit
patterns, and the constant and its elements have to name their members. -/
def readWith (patterns : Bool) (document : Document) : Decoded Constant := do
  let members ←
    if patterns then document.members else document.membersInOrder ["ty", "value"]
  let ⟨value, _⟩ ← members.get "value"
  return .mk (← members.required "ty" Ty.ofDocument) (← readPayload patterns value)
termination_by sizeOf document

def readPayload (patterns : Bool) (document : Document) : Decoded (Payload Constant) := do
  match ← document.choice with
  | ("Bool", some components) => .bools <$> components.val.asList asBool
  | ("Int", some components) => .ints <$> components.val.asList readInt
  | ("Uint", some components) => .uints <$> components.val.asList readUInt
  | ("Float", some components) => .floats <$> components.val.asList asSingle
  | ("Composite", some ⟨elements, _⟩) => do
      .composite <$> (← elements.items).mapM fun ⟨element, _⟩ => readWith patterns element
  | (name, content) =>
      match patterns, name, content with
      | true, "FloatBits", some components =>
          .floats <$> components.val.asList readPattern
      | _, _, _ => throw (.unknownName name)
termination_by sizeOf document

end

def ofDocument (document : Document) : Decoded Constant := readWith false document

end Constant
end StageLink
