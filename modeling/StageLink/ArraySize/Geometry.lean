import StageLink.ArraySize
import StageLink.Diagnostic

/-!
# Arrays of geometry inputs

Every array among the inputs of a geometry stage has one element for each vertex of the input
primitive.  An input that is declared with another length, or indexed beyond, is an error and stays
as it is.
-/

namespace StageLink
namespace ArraySize

/-- Give an input array as many elements as there are vertices. -/
def fitInput (vertices : Nat) (declared : Variable) : Except LinkError Variable :=
  if declared.mode ≠ .shaderIn || !declared.ty.isArray then
    .ok declared
  else
    let length := declared.ty.length?.getD 0
    if length ≠ 0 && length ≠ vertices then
      .error (.geometryInputSize declared.name length vertices)
    else if vertices ≤ declared.maxArrayAccess then
      .error (.geometryInputAccess declared.name declared.maxArrayAccess vertices)
    else
      .ok
        { declared with
          ty := declared.ty.withLength vertices, maxArrayAccess := vertices - 1 }

/-- Fit some inputs in order, and list what is wrong with those that do not fit. -/
def fitInputs (vertices : Nat) (shader : Shader) :
    List VariableId → Checked (Shader × List LinkError)
  | [] => return (shader, [])
  | id :: ids => do
      match fitInput vertices (← shader.fetchVariable id) with
      | .ok fitted => fitInputs vertices (shader.modifyVariable id fun _ => fitted) ids
      | .error cause =>
          let (shader, causes) ← fitInputs vertices shader ids
          return (shader, cause :: causes)

def fitGeometryInputs (vertices : Nat) (shader : Shader) : Checked (Shader × List LinkError) := do
  let (fitted, causes) ← fitInputs vertices shader shader.globals
  return (← retypeElements fitted, causes)

end ArraySize
end StageLink
