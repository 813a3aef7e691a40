import StageLink.Diagnostic.Judged
import StageLink.Stage.Usage

/-!
# Rules of single stages

What the language demands of the executable of a stage as such, and what a program wants to know
about it: how a vertex or geometry stage clips, and the layout of a geometry stage.
-/

namespace StageLink

/-- How a stage uses clip distances. -/
structure ClipUsage where
  usesClipDistance : Bool := false
  clipDistanceSize : Nat := 0
  deriving DecidableEq

/-- What a program knows about its geometry stage. -/
structure GeometryInfo where
  verticesIn : Nat := 0
  layout : GeometryLayout := {}
  clip : ClipUsage := {}
  usesEndPrimitive : Bool := false
  deriving DecidableEq

/-- What a check of a stage finds out. -/
inductive StageInfo where
  | vertex (clip : ClipUsage)
  | geometry (info : GeometryInfo)
  | fragment

namespace StageRules

/-- How a stage clips.  Before version 130, and in the embedded dialect, there are no clip
distances; writing clip distances excludes writing a clip vertex. -/
def clipUsage (shader : Shader) (version : Nat) (isEs : Bool) : Judged ClipUsage := do
  if isEs || version < 130 then
    return {}
  let writesVertex ← shader.writes "gl_ClipVertex"
  let writesDistance ← shader.writes "gl_ClipDistance"
  if writesVertex && writesDistance then
    Judged.reject (.clipVertexAndDistance shader.stage)
  let size := ((shader.findVariable? "gl_ClipDistance").bind (·.ty.length?)).getD 0
  return ⟨writesDistance, size⟩

/-- The version from which on a vertex stage need not write its position. -/
def positionOptionalFrom (isEs : Bool) : Nat := if isEs then 300 else 140

def checkVertex (shader : Shader) (version : Nat) (isEs : Bool) : Judged ClipUsage := do
  if version < positionOptionalFrom isEs then
    unless ← shader.writes "gl_Position" do
      Judged.reject .missingPositionWrite
  clipUsage shader version isEs

/-- Check a fragment stage, which writes either the one color or the array of colors. -/
def checkFragment (shader : Shader) : Judged Unit := do
  if ← shader.writes "gl_FragColor" then
    if ← shader.writes "gl_FragData" then
      Judged.reject .colorAndData

def checkGeometry (shader : Shader) (version : Nat) (isEs : Bool) : Judged GeometryInfo := do
  let clip ← clipUsage shader version isEs
  return {
    verticesIn := (shader.geometry.input.map Primitive.vertices).getD 0
    layout := shader.geometry
    clip := clip
    usesEndPrimitive := shader.usesEndPrimitive }

def check (shader : Shader) (version : Nat) (isEs : Bool) : Judged StageInfo :=
  match shader.stage with
  | .vertex => return .vertex (← checkVertex shader version isEs)
  | .geometry => return .geometry (← checkGeometry shader version isEs)
  | .fragment => do
      checkFragment shader
      return .fragment

end StageRules
end StageLink
