/-!
# Pipeline stages

The programmable stages in pipeline order, values kept for each of them, and the layout that a
geometry stage declares.
-/

namespace StageLink

/-- A programmable pipeline stage. -/
inductive Stage where
  | vertex
  | geometry
  | fragment
  deriving DecidableEq

/-- The topology of a geometry primitive. -/
inductive Primitive where
  | points
  | lines
  | linesAdjacency
  | lineStrip
  | triangles
  | trianglesAdjacency
  | triangleStrip
  deriving DecidableEq

/-- Geometry layout qualifiers declared by one unit, or folded for a stage. -/
structure GeometryLayout where
  input : Option Primitive := none
  output : Option Primitive := none
  verticesOut : Option Nat := none
  deriving DecidableEq

namespace Stage

/-- The stages in pipeline order. -/
def all : List Stage := [vertex, geometry, fragment]

instance {holds : Stage → Prop} [DecidablePred holds] : Decidable (∀ stage, holds stage) :=
  decidable_of_iff (∀ stage ∈ Stage.all, holds stage)
    ⟨fun each stage => each stage (by cases stage <;> decide), fun each stage _ => each stage⟩

/-- The position in the pipeline. -/
def index : Stage → Nat
  | vertex => 0
  | geometry => 1
  | fragment => 2

def name : Stage → String
  | vertex => "vertex"
  | geometry => "geometry"
  | fragment => "fragment"

end Stage

namespace Primitive

/-- The number of vertices of one primitive. -/
def vertices : Primitive → Nat
  | points => 1
  | lines | lineStrip => 2
  | triangles | triangleStrip => 3
  | linesAdjacency => 4
  | trianglesAdjacency => 6

/-- The name of a primitive in a listing. -/
def text : Primitive → String
  | points => "Points"
  | lines => "Lines"
  | linesAdjacency => "LinesAdjacency"
  | lineStrip => "LineStrip"
  | triangles => "Triangles"
  | trianglesAdjacency => "TrianglesAdjacency"
  | triangleStrip => "TriangleStrip"

end Primitive

/-- One value for each stage. -/
structure PerStage (Value : Type) where
  vertex : Value
  geometry : Value
  fragment : Value
  deriving DecidableEq

namespace PerStage

variable {Value Result : Type}

def constant (value : Value) : PerStage Value := ⟨value, value, value⟩

def get (values : PerStage Value) : Stage → Value
  | .vertex => values.vertex
  | .geometry => values.geometry
  | .fragment => values.fragment

def set (values : PerStage Value) (stage : Stage) (value : Value) : PerStage Value :=
  match stage with
  | .vertex => { values with vertex := value }
  | .geometry => { values with geometry := value }
  | .fragment => { values with fragment := value }

def modify (values : PerStage Value) (stage : Stage) (change : Value → Value) : PerStage Value :=
  values.set stage (change (values.get stage))

def map (values : PerStage Value) (change : Value → Result) : PerStage Result :=
  ⟨change values.vertex, change values.geometry, change values.fragment⟩

/-- The values in pipeline order. -/
def toList (values : PerStage Value) : List Value :=
  [values.vertex, values.geometry, values.fragment]

@[simp]
theorem get_constant (value : Value) (stage : Stage) : (constant value).get stage = value := by
  cases stage <;> rfl

@[simp]
theorem get_set_same (values : PerStage Value) (stage : Stage) (value : Value) :
    (values.set stage value).get stage = value := by
  cases stage <;> rfl

theorem get_set_other (values : PerStage Value) {stage other : Stage} (value : Value)
    (different : stage ≠ other) : (values.set stage value).get other = values.get other := by
  cases stage <;> cases other <;> first | rfl | exact absurd rfl different

@[simp]
theorem get_map (values : PerStage Value) (change : Value → Result) (stage : Stage) :
    (values.map change).get stage = change (values.get stage) := by
  cases stage <;> rfl

end PerStage
end StageLink
