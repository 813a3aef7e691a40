import StageLink.Capture
import StageLink.Diagnostic.Log
import StageLink.Slot.Attribute
import StageLink.Stage.Merge
import StageLink.Stage.Rules
import StageLink.Uniform.Storage

/-!
# Programs

A program is what an application wants linked: translation units, locations bound to names and
varyings to be captured.  The outcome of its last link is kept with it.
-/

namespace StageLink

/-- The outcome of a link, complete or as far as the link has come. -/
structure Outcome where
  log : Log := {}
  /-- The greatest version of the units. -/
  version : Nat := 0
  isEs : Bool := false
  executables : PerStage (Option Shader) := .constant none
  /-- The uniform blocks of all stages, in the order in which stages have them. -/
  uniformBlocks : List UniformBlock := []
  /-- For each stage and each of the uniform blocks, the position of the block in the stage. -/
  blockPositions : PerStage (List (Option Nat)) := .constant []
  uniforms : List UniformEntry := []
  usages : PerStage StageUsage := .constant {}
  vertex : ClipUsage := {}
  geometry : GeometryInfo := {}
  /-- The number of clip distances of the last stage before rasterization. -/
  lastClipDistanceSize : Nat := 0
  depthLayout : DepthLayout := .none
  captured : List CapturedVarying := []

/-- What an application wants linked, with the outcome of the last link. -/
structure Program where
  units : List TranslationUnit := []
  /-- Locations bound to vertex inputs. -/
  attributes : NameTable Nat := {}
  /-- Locations bound to fragment outputs. -/
  fragmentData : NameTable Nat := {}
  /-- Dual-source indices bound to fragment outputs. -/
  fragmentIndices : NameTable Nat := {}
  feedback : FeedbackRequest := {}
  outcome : Outcome := {}
  /-- Whether the last link has gone through without an error. -/
  linked : Bool := false

namespace Outcome

/-- The stages that have an executable, in pipeline order. -/
def presentStages (outcome : Outcome) : List Stage :=
  Stage.all.filter fun stage => (outcome.executables.get stage).isSome

/-- The executables in pipeline order. -/
def present (outcome : Outcome) : List Shader := outcome.executables.toList.filterMap id

/-- The uniform with a name. -/
def uniform? (outcome : Outcome) (name : String) : Option UniformEntry :=
  outcome.uniforms.find? (·.name = name)

end Outcome

namespace Program

def attach (program : Program) (unit : TranslationUnit) : Program :=
  { program with units := program.units ++ [unit] }

/-- Bind a vertex input to a location. -/
def bindAttribute (program : Program) (name : String) (location : Nat) : Program :=
  { program with attributes := program.attributes.insert name location }

def bindFragmentData (program : Program) (name : String) (location : Nat) : Program :=
  { program with fragmentData := program.fragmentData.insert name location }

/-- Bind a fragment output to a location and a dual-source index. -/
def bindFragmentDataIndexed (program : Program) (name : String) (location index : Nat) : Program :=
  { program.bindFragmentData name location with
    fragmentIndices := program.fragmentIndices.insert name index }

end Program
end StageLink
