import StageLink.Diagnostic.Judged
import StageLink.Shader

/-!
# Boundaries between stages

Each input of a stage that has an output of its name in the stage before must agree with it in type,
in centroid and invariant qualifiers and in interpolation.  Inputs of a geometry stage are arrays
with one element for each vertex.
-/

namespace StageLink

/-- The word for an interpolation qualifier. -/
def Interpolation.text : Interpolation → String
  | smooth => "smooth"
  | flat => "flat"
  | noPerspective => "noperspective"

/-- The word for an interpolation qualifier that may be missing. -/
def interpolationText (interpolation : Option Interpolation) : String :=
  (interpolation.map Interpolation.text).getD "no"

namespace Boundary

def perVertex (consumer : Stage) (input : Ty) : Ty :=
  if consumer = .geometry then input.element?.getD input else input

/-- Whether an output and an input are both built-in arrays, which may have different lengths. -/
def areBuiltinArrays (output : Variable) (input : Ty) : Bool :=
  output.isBuiltin && output.ty.isArray && input.isArray

/-- What an input and the output of its name disagree about. -/
def disagreement? (producer consumer : Stage) (output input : Variable) : Option LinkError :=
  let inputType := perVertex consumer input.ty
  if inputType ≠ output.ty && !areBuiltinArrays output inputType then
    some (.boundaryTypeMismatch producer consumer output.name output.ty input.ty)
  else if input.centroid ≠ output.centroid then
    some (.boundaryCentroidMismatch producer consumer output.name output.centroid input.centroid)
  else if input.invariant ≠ output.invariant then
    some
      (.boundaryInvariantMismatch producer consumer output.name output.invariant input.invariant)
  else if input.interpolation ≠ output.interpolation then
    some (.interpolationMismatch producer consumer output.name
      (interpolationText output.interpolation) (interpolationText input.interpolation))
  else
    none

/-- The outputs of a stage by name. -/
def outputs (declared : List Variable) : NameTable Variable :=
  NameTable.ofList
    ((declared.filter (·.mode = .shaderOut)).map fun output => (output.name, output))

/-- All disagreements between the inputs among some globals and the outputs of the stage before. -/
def disagreements (producer consumer : Stage) (outputs : NameTable Variable)
    (declared : List Variable) : List LinkError :=
  (declared.filter (·.mode = .shaderIn)).filterMap fun input =>
    (outputs.get? input.name).bind fun output => disagreement? producer consumer output input

def check (producer consumer : Shader) : Judged Unit := do
  let declaredOutputs ← producer.globals.mapM fun id => producer.fetchVariable id
  let declaredInputs ← consumer.globals.mapM fun id => consumer.fetchVariable id
  Judged.rejectAll
    (disagreements producer.stage consumer.stage (outputs declaredOutputs) declaredInputs)

end Boundary
end StageLink
